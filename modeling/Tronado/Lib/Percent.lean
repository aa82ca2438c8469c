import Tronado.Lib.Written

/-!
# Percent encoding

`quote` is `urllib.parse.quote(s, safe="")`: the text in UTF-8, every byte but the
unreserved ones written as `%XX`.  `parseQsl` is the reader at the other end, which
splits a query at `&` and at the first `=`, turns `+` into a space and decodes.

* `quote_chars`: nothing but unreserved characters and `%` is written.
* `unquote_quote`: decoding gives back the text.
* `parseQsl_quote`: a query of one parameter is read as that parameter.
-/

namespace Percent

open Py

/-- A letter, a digit, or one of `_.-~`. -/
def isUnreserved (c : ℕ) : Bool :=
  (65 ≤ c && c ≤ 90) || (97 ≤ c && c ≤ 122) || isDigit c || c == 0x5F || c == 0x2E || c == 0x2D ||
    c == 0x7E

/-- The upper-case hexadecimal digit of a number below sixteen. -/
def hexDigitUpper (n : ℕ) : ℕ := if n < 10 then 48 + n else 55 + n

/-- `chr(b) if b in self.safe else '%{:02X}'.format(b)`. -/
def quoteByte (b : ℕ) : Str :=
  if isUnreserved b then [b] else [0x25, hexDigitUpper (b / 16), hexDigitUpper (b % 16)]

/-- `quote_from_bytes(b, safe="")`. -/
def quoteBytes (b : Bytes) : Str := b.flatMap (fun x => quoteByte x.toNat)

/-- `quote(s, safe="")`; `none` is `UnicodeEncodeError`. -/
def quote (s : Str) : Option Str := (encodeUtf8 s).map quoteBytes

/-- The value of a hexadecimal digit. -/
def hexValue (c : ℕ) : Option ℕ :=
  if 48 ≤ c ∧ c ≤ 57 then some (c - 48)
  else if 65 ≤ c ∧ c ≤ 70 then some (c - 55)
  else if 97 ≤ c ∧ c ≤ 102 then some (c - 87)
  else none

/-- `unquote_to_bytes`: a `%` without two digits stands for itself. -/
def unquoteBytes : List ℕ → List ℕ
  | [] => []
  | [c] => [c]
  | [c, a] => [c, a]
  | c :: a :: b :: r =>
    if c = 0x25 then
      match hexValue a, hexValue b with
      | some x, some y => (16 * x + y) :: unquoteBytes r
      | _, _ => c :: unquoteBytes (a :: b :: r)
    else c :: unquoteBytes (a :: b :: r)

/-- `unquote(s, errors="strict")`. -/
def unquote (s : Str) : Option Str := decodeUtf8 (unquoteBytes (s.flatMap utf8Char))

/-- `s.replace("+", " ")`. -/
def plusToSpace (s : Str) : Str := s.map (fun c => if c = 0x2B then 0x20 else c)

/-- One `name=value` of a query. -/
def parsePair (nv : Str) : Option (Str × Str) := do
  let name ← unquote (plusToSpace (nv.takeWhile (· != 0x3D)))
  let value ← unquote (plusToSpace ((nv.dropWhile (· != 0x3D)).drop 1))
  return (name, value)

/-- `parse_qsl(query, keep_blank_values=True, errors="strict")`. -/
def parseQsl (query : Str) : Option (List (Str × Str)) :=
  ((query.splitOn 0x26).filter (· ≠ [])).mapM parsePair

/-- A URL without its fragment. -/
def defragment (url : Str) : Str := url.takeWhile (· != 0x23)

/-- What stands before the query of a URL. -/
def urlPage (url : Str) : Str := (defragment url).takeWhile (· != 0x3F)

/-- `urlsplit(url).query`. -/
def urlQuery (url : Str) : Str := ((defragment url).dropWhile (· != 0x3F)).drop 1

/-! ## What is written -/

theorem hexDigitUpper_cases {n : ℕ} (h : n < 16) :
    (48 ≤ hexDigitUpper n ∧ hexDigitUpper n ≤ 57) ∨
      (65 ≤ hexDigitUpper n ∧ hexDigitUpper n ≤ 70) := by
  unfold hexDigitUpper
  split_ifs <;> omega

theorem hexValue_hexDigitUpper {n : ℕ} (h : n < 16) : hexValue (hexDigitUpper n) = some n := by
  unfold hexValue hexDigitUpper
  split_ifs <;> first | omega | (congr 1; omega)

theorem isUnreserved_hexDigitUpper {n : ℕ} (h : n < 16) :
    isUnreserved (hexDigitUpper n) = true := by
  have hc := hexDigitUpper_cases h
  simp only [isUnreserved, isDigit, Bool.or_eq_true, Bool.and_eq_true, decide_eq_true_eq]
  omega

/-- A character of quoted text. -/
def IsQuoted (c : ℕ) : Prop := isUnreserved c = true ∨ c = 0x25

theorem IsQuoted.lt {c : ℕ} (h : IsQuoted c) : c < 128 := by
  rcases h with h | rfl
  · simp only [isUnreserved, isDigit, Bool.or_eq_true, Bool.and_eq_true, decide_eq_true_eq,
      beq_iff_eq] at h
    omega
  · decide

/-- No delimiter of a URL is one. -/
theorem IsQuoted.ne {c d : ℕ} (h : IsQuoted c) (hd : isUnreserved d = false) (hp : d ≠ 0x25) :
    c ≠ d := by
  rintro rfl
  rcases h with h | h
  · rw [h] at hd
    cases hd
  · exact hp h

theorem quoteByte_chars {b : ℕ} (hb : b < 256) {c : ℕ} (h : c ∈ quoteByte b) : IsQuoted c := by
  unfold quoteByte at h
  split at h
  · next hu =>
    rw [List.mem_singleton] at h
    subst h
    exact Or.inl hu
  · simp only [List.mem_cons, List.not_mem_nil, or_false] at h
    rcases h with rfl | rfl | rfl
    · exact Or.inr rfl
    · exact Or.inl (isUnreserved_hexDigitUpper (by omega))
    · exact Or.inl (isUnreserved_hexDigitUpper (by omega))

/-- **Only unreserved characters and `%` are written.** -/
theorem quote_chars {s q : Str} (h : quote s = some q) {c : ℕ} (hc : c ∈ q) : IsQuoted c := by
  obtain ⟨b, -, rfl⟩ := Option.map_eq_some_iff.mp h
  obtain ⟨x, -, hx⟩ := List.mem_flatMap.mp hc
  exact quoteByte_chars x.toNat_lt hx

/-! ## Reading it back -/

theorem unquoteBytes_cons {c : ℕ} (h : c ≠ 0x25) (r : List ℕ) :
    unquoteBytes (c :: r) = c :: unquoteBytes r := by
  rcases r with _ | ⟨a, _ | ⟨b, r⟩⟩
  · rfl
  · rfl
  · rw [unquoteBytes, if_neg h]

theorem unquoteBytes_quoteByte {b : ℕ} (hb : b < 256) (r : List ℕ) :
    unquoteBytes (quoteByte b ++ r) = b :: unquoteBytes r := by
  unfold quoteByte
  by_cases hu : isUnreserved b = true
  · have hne : b ≠ 0x25 := by
      rintro rfl
      exact absurd hu (by decide)
    rw [if_pos hu, List.singleton_append, unquoteBytes_cons hne]
  · rw [if_neg hu, List.cons_append, List.cons_append, List.cons_append, List.nil_append,
      unquoteBytes, if_pos rfl, hexValue_hexDigitUpper (by omega),
      hexValue_hexDigitUpper (by omega)]
    dsimp only
    rw [Nat.div_add_mod]

theorem unquoteBytes_quoteBytes (b : Bytes) :
    unquoteBytes (quoteBytes b) = b.map UInt8.toNat := by
  induction b with
  | nil => rfl
  | cons x b ih =>
    show unquoteBytes (quoteByte x.toNat ++ quoteBytes b) = _
    rw [unquoteBytes_quoteByte x.toNat_lt, ih, List.map_cons]

/-- ASCII text is its own UTF-8. -/
theorem flatMap_utf8Char {s : Str} (h : ∀ c ∈ s, c < 128) : s.flatMap utf8Char = s := by
  induction s with
  | nil => rfl
  | cons c s ih =>
    rw [List.flatMap_cons, utf8Char, if_pos (h c List.mem_cons_self),
      ih (fun d hd => h d (List.mem_cons_of_mem c hd)), List.singleton_append]

/-- **Decoding gives back the text.** -/
theorem unquote_quote {s q : Str} (h : quote s = some q) : unquote q = some s := by
  have hascii : ∀ c ∈ q, c < 128 := fun c hc => (quote_chars h hc).lt
  obtain ⟨b, hb, rfl⟩ := Option.map_eq_some_iff.mp h
  rw [unquote, flatMap_utf8Char hascii, unquoteBytes_quoteBytes]
  exact decodeUtf8_encodeUtf8 hb

theorem plusToSpace_of_not_mem {s : Str} (h : 0x2B ∉ s) : plusToSpace s = s := by
  unfold plusToSpace
  rw [List.map_congr_left (g := id), List.map_id]
  intro c hc
  have hne : c ≠ 0x2B := by
    rintro rfl
    exact h hc
  rw [if_neg hne]
  rfl

theorem plusToSpace_quote {s q : Str} (h : quote s = some q) : plusToSpace q = q := by
  apply plusToSpace_of_not_mem
  intro hc
  exact (quote_chars h hc).ne (d := 0x2B) (by decide) (by decide) rfl

/-- **One parameter is read as one parameter**, whatever its value: no value adds a
second parameter, or cuts the first one short. -/
theorem parseQsl_quote {name value n v : Str} (hn : quote name = some n)
    (hv : quote value = some v) : parseQsl (n ++ 0x3D :: v) = some [(name, value)] := by
  have hnot (d : ℕ) (hd : isUnreserved d = false) (hp : d ≠ 0x25) : d ∉ n ∧ d ∉ v :=
    ⟨fun hm => (quote_chars hn hm).ne hd hp rfl, fun hm => (quote_chars hv hm).ne hd hp rfl⟩
  have hamp : 0x26 ∉ n ++ 0x3D :: v := by
    obtain ⟨h1, h2⟩ := hnot 0x26 (by decide) (by decide)
    simp [h1, h2]
  have heq : ∀ c ∈ n, (c != 0x3D) = true := by
    intro c hc
    rw [bne_iff_ne]
    rintro rfl
    exact (hnot 0x3D (by decide) (by decide)).1 hc
  have htake : (n ++ 0x3D :: v).takeWhile (· != 0x3D) = n := by
    rw [List.takeWhile_append_of_pos heq]
    simp
  have hdrop : (n ++ 0x3D :: v).dropWhile (· != 0x3D) = 0x3D :: v := by
    rw [List.dropWhile_append_of_pos heq]
    simp
  have hpair : parsePair (n ++ 0x3D :: v) = some (name, value) := by
    rw [parsePair, htake, hdrop, List.drop_one, List.tail_cons, plusToSpace_quote hn,
      plusToSpace_quote hv, unquote_quote hn, unquote_quote hv]
    rfl
  rw [parseQsl, List.splitOn_eq_singleton hamp]
  simp [hpair]

/-- A page with a query that holds no `#` is split into the two. -/
theorem urlPage_append {page query : Str} (hp : ∀ c ∈ page, c ≠ 0x23 ∧ c ≠ 0x3F)
    (hq : 0x23 ∉ query) :
    urlPage (page ++ 0x3F :: query) = page ∧ urlQuery (page ++ 0x3F :: query) = query := by
  have hfrag : defragment (page ++ 0x3F :: query) = page ++ 0x3F :: query := by
    rw [defragment, List.takeWhile_eq_self_iff]
    intro c hc
    rw [bne_iff_ne]
    rintro rfl
    rcases List.mem_append.mp hc with hc | hc
    · exact (hp _ hc).1 rfl
    · rcases List.mem_cons.mp hc with h | h
      · cases h
      · exact hq h
  have hpage : ∀ c ∈ page, (c != 0x3F) = true := fun c hc => bne_iff_ne.mpr (hp c hc).2
  rw [urlPage, urlQuery, hfrag, List.takeWhile_append_of_pos hpage,
    List.dropWhile_append_of_pos hpage]
  simp

end Percent
