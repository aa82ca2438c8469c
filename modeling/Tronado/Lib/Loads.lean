import Tronado.Lib.Value

/-!
# `json.loads` and `json.dumps`

`loads n s` is CPython's JSON decoder with a recursion budget of `n` nested
containers.  It is one pass over the text by a machine with a stack, `step`, so
the order of the two errors is the decoder's: a text that opens one container too
many fails with `RecursionError` even if it is malformed further on, and every
other failure is a `ValueError`.

* Objects become dicts, the last value of a repeated key winning; a literal with
  a point or an exponent becomes the nearest double, any other an exact integer;
  `NaN`, `Infinity` and `-Infinity` are accepted.
* `\u` escapes of a surrogate pair are joined, a lone one is kept.
* `loadsBytes` first finds the encoding as `json.detect_encoding` does, and
  decodes with `surrogatepass`.

`dumps` is `json.dumps` with `ensure_ascii=False` and compact separators.
`dumps_dict_scalar`: a dict whose names and values are written without lone
surrogates is written without them, so `encode("utf-8")` accepts it.
-/

namespace Py

/-- What `json.loads` raises. -/
inductive LoadsError
  | valueError
  | recursionError
  deriving DecidableEq

namespace Loads

/-- A container being read. -/
inductive Frame
  | list (items : List Value)
  | dict (items : List (Str × Value)) (key : Str)

/-- Where a number stands: after its sign, in its integer digits, and so on. -/
inductive NumPos
  | sign | zero | int | dot | frac | exp | expSign | expDigits
  deriving DecidableEq

/-- A number literal being read. -/
structure Num where
  pos : NumPos
  neg : Bool
  coeff : ℕ
  scale : ℕ
  expNeg : Bool
  exp : ℕ

/-- Where a string stands: plain, after a backslash, or in a `\u` escape. -/
inductive Escape
  | plain
  | backslash
  | hex (count value : ℕ)

/-- What the decoder is reading. -/
inductive Mode
  /-- A value; `]` too right after `[`. -/
  | value (first : Bool)
  /-- A property name; `}` too right after `{`. -/
  | key (first : Bool)
  | colon
  /-- A string.  `high` holds a high surrogate that the last escape wrote. -/
  | string (isKey : Bool) (acc : Str) (escape : Escape) (high : Option ℕ)
  | number (n : Num)
  /-- The rest of a word that stands for `v`. -/
  | word (rest : Str) (v : Value)
  /-- A comma or a closing bracket. -/
  | after
  /-- The whole value has been read. -/
  | done (v : Value)

structure State where
  mode : Mode
  stack : List Frame

/-- The value of a number literal: an exact integer, or the nearest double. -/
def Num.value (n : Num) : Value :=
  let sign : ℤ := if n.neg then -1 else 1
  match n.pos with
  | .zero | .int => .int (sign * n.coeff)
  | _ =>
    let e : ℤ := (if n.expNeg then -(n.exp : ℤ) else n.exp) - n.scale
    .float (.ofRat (sign * n.coeff * (10 : ℚ) ^ e))

/-- Whether a number literal may end here. -/
def NumPos.complete : NumPos → Bool
  | .zero | .int | .frac | .expDigits => true
  | _ => false

/-- A value has been read: it goes into the container on top. -/
def complete (v : Value) : List Frame → State
  | [] => ⟨.done v, []⟩
  | .list items :: st => ⟨.after, .list (items ++ [v]) :: st⟩
  | .dict items k :: st => ⟨.after, .dict (setItem k v items) k :: st⟩

/-- A string has been read: a value, or the name of the next member. -/
def endString (isKey : Bool) (s : Str) (st : List Frame) : State :=
  match isKey, st with
  | true, .dict items _ :: st => ⟨.colon, .dict items s :: st⟩
  | _, st => complete (.str s) st

def isWs (c : ℕ) : Bool := c == 0x20 || c == 0x09 || c == 0x0A || c == 0x0D

def bad : Except LoadsError State := .error .valueError

/-- Open a container, within the recursion budget. -/
def push (limit : ℕ) (f : Frame) (mode : Mode) (st : List Frame) : Except LoadsError State :=
  if st.length < limit then .ok ⟨mode, f :: st⟩ else .error .recursionError

/-- The first character of a value. -/
def startValue (limit c : ℕ) (st : List Frame) : Except LoadsError State :=
  if c = 0x22 then .ok ⟨.string false [] .plain none, st⟩
  else if c = 0x7B then push limit (.dict [] []) (.key true) st
  else if c = 0x5B then push limit (.list []) (.value true) st
  else if c = 0x2D then .ok ⟨.number ⟨.sign, true, 0, 0, false, 0⟩, st⟩
  else if c = 0x30 then .ok ⟨.number ⟨.zero, false, 0, 0, false, 0⟩, st⟩
  else if isDigit c then .ok ⟨.number ⟨.int, false, c - 48, 0, false, 0⟩, st⟩
  else if c = 0x6E then .ok ⟨.word (lit "ull") .null, st⟩
  else if c = 0x74 then .ok ⟨.word (lit "rue") (.bool true), st⟩
  else if c = 0x66 then .ok ⟨.word (lit "alse") (.bool false), st⟩
  else if c = 0x4E then .ok ⟨.word (lit "aN") (.float .nan), st⟩
  else if c = 0x49 then .ok ⟨.word (lit "nfinity") (.float .inf), st⟩
  else bad

/-- A character after a complete value. -/
def afterValue (c : ℕ) (st : List Frame) : Except LoadsError State :=
  match st with
  | .list items :: r =>
    if isWs c then .ok ⟨.after, st⟩
    else if c = 0x2C then .ok ⟨.value false, st⟩
    else if c = 0x5D then .ok (complete (.list items) r)
    else bad
  | .dict items _ :: r =>
    if isWs c then .ok ⟨.after, st⟩
    else if c = 0x2C then .ok ⟨.key false, st⟩
    else if c = 0x7D then .ok (complete (.dict items) r)
    else bad
  | [] => bad

/-- A character that belongs to no number: the literal ends before it. -/
def afterNumber (n : Num) (c : ℕ) (st : List Frame) : Except LoadsError State :=
  if n.pos.complete then
    match complete n.value st with
    | ⟨.done v, st⟩ => if isWs c then .ok ⟨.done v, st⟩ else bad
    | ⟨_, st⟩ => afterValue c st
  else bad

def stepNumber (n : Num) (c : ℕ) (st : List Frame) : Except LoadsError State :=
  let go (n : Num) : Except LoadsError State := .ok ⟨.number n, st⟩
  let d := c - 48
  match n.pos with
  | .sign =>
    if c = 0x30 then go { n with pos := .zero }
    else if isDigit c then go { n with pos := .int, coeff := d }
    else if c = 0x49 then .ok ⟨.word (lit "nfinity") (.float .negInf), st⟩
    else bad
  | .zero =>
    if c = 0x2E then go { n with pos := .dot }
    else if c = 0x65 ∨ c = 0x45 then go { n with pos := .exp }
    else afterNumber n c st
  | .int =>
    if isDigit c then go { n with coeff := 10 * n.coeff + d }
    else if c = 0x2E then go { n with pos := .dot }
    else if c = 0x65 ∨ c = 0x45 then go { n with pos := .exp }
    else afterNumber n c st
  | .dot =>
    if isDigit c then go { n with pos := .frac, coeff := 10 * n.coeff + d, scale := n.scale + 1 }
    else bad
  | .frac =>
    if isDigit c then go { n with coeff := 10 * n.coeff + d, scale := n.scale + 1 }
    else if c = 0x65 ∨ c = 0x45 then go { n with pos := .exp }
    else afterNumber n c st
  | .exp =>
    if isDigit c then go { n with pos := .expDigits, exp := d }
    else if c = 0x2B then go { n with pos := .expSign }
    else if c = 0x2D then go { n with pos := .expSign, expNeg := true }
    else bad
  | .expSign => if isDigit c then go { n with pos := .expDigits, exp := d } else bad
  | .expDigits => if isDigit c then go { n with exp := 10 * n.exp + d } else afterNumber n c st

/-- The value of a hexadecimal digit. -/
def hexValue (c : ℕ) : Option ℕ :=
  if isDigit c then some (c - 48)
  else if 97 ≤ c ∧ c ≤ 102 then some (c - 87)
  else if 65 ≤ c ∧ c ≤ 70 then some (c - 55)
  else none

/-- The character a one-letter escape stands for. -/
def escaped (c : ℕ) : Option ℕ :=
  if c = 0x22 ∨ c = 0x5C ∨ c = 0x2F then some c
  else if c = 0x62 then some 0x08
  else if c = 0x66 then some 0x0C
  else if c = 0x6E then some 0x0A
  else if c = 0x72 then some 0x0D
  else if c = 0x74 then some 0x09
  else none

def isHigh (u : ℕ) : Bool := 0xD800 ≤ u && u ≤ 0xDBFF

def isLow (u : ℕ) : Bool := 0xDC00 ≤ u && u ≤ 0xDFFF

/-- A `\u` escape has been read: it joins a high surrogate just before it. -/
def addEscape (acc : Str) (high : Option ℕ) (u : ℕ) : Str × Option ℕ :=
  match high with
  | some h =>
    if isLow u then (acc.dropLast ++ [0x10000 + (h - 0xD800) * 1024 + (u - 0xDC00)], none)
    else (acc ++ [u], if isHigh u then some u else none)
  | none => (acc ++ [u], if isHigh u then some u else none)

def stepString (isKey : Bool) (acc : Str) (escape : Escape) (high : Option ℕ) (c : ℕ)
    (st : List Frame) : Except LoadsError State :=
  match escape with
  | .plain =>
    if c = 0x22 then .ok (endString isKey acc st)
    else if c = 0x5C then .ok ⟨.string isKey acc .backslash high, st⟩
    else if c < 0x20 then bad
    else .ok ⟨.string isKey (acc ++ [c]) .plain none, st⟩
  | .backslash =>
    if c = 0x75 then .ok ⟨.string isKey acc (.hex 0 0) high, st⟩
    else match escaped c with
      | some d => .ok ⟨.string isKey (acc ++ [d]) .plain none, st⟩
      | none => bad
  | .hex count value =>
    match hexValue c with
    | none => bad
    | some d =>
      if count < 3 then .ok ⟨.string isKey acc (.hex (count + 1) (16 * value + d)) high, st⟩
      else
        let (acc, high) := addEscape acc high (16 * value + d)
        .ok ⟨.string isKey acc .plain high, st⟩

/-- One character of the text. -/
def step (limit : ℕ) (s : State) (c : ℕ) : Except LoadsError State :=
  match s.mode with
  | .value first =>
    if isWs c then .ok s
    else match first, s.stack with
      | true, .list items :: r =>
        if c = 0x5D then .ok (complete (.list items) r) else startValue limit c s.stack
      | _, st => startValue limit c st
  | .key first =>
    if isWs c then .ok s
    else if c = 0x22 then .ok ⟨.string true [] .plain none, s.stack⟩
    else match first, s.stack with
      | true, .dict items _ :: r => if c = 0x7D then .ok (complete (.dict items) r) else bad
      | _, _ => bad
  | .colon =>
    if isWs c then .ok s else if c = 0x3A then .ok ⟨.value false, s.stack⟩ else bad
  | .string isKey acc escape high => stepString isKey acc escape high c s.stack
  | .number n => stepNumber n c s.stack
  | .word rest v =>
    match rest with
    | [] => bad
    | [d] => if c = d then .ok (complete v s.stack) else bad
    | d :: r => if c = d then .ok ⟨.word r v, s.stack⟩ else bad
  | .after => afterValue c s.stack
  | .done _ => if isWs c then .ok s else bad

/-- The end of the text. -/
def finish (s : State) : Except LoadsError Value :=
  match s.mode with
  | .done v => .ok v
  | .number n =>
    if n.pos.complete ∧ s.stack = [] then .ok n.value else .error .valueError
  | _ => .error .valueError

end Loads

open Loads in
/-- `json.loads(s)` of a `str`, with room for `limit` nested containers. -/
def loads (limit : ℕ) (s : Str) : Except LoadsError Value :=
  s.foldlM (step limit) ⟨.value false, []⟩ >>= finish

/-! ## Bytes -/

def isTail (b : ℕ) : Bool := 0x80 ≤ b && b ≤ 0xBF

/-- Decoding UTF-8 with `surrogatepass`. -/
def decodeUtf8 : List ℕ → Option Str
  | [] => some []
  | a :: r =>
    if a < 0x80 then (decodeUtf8 r).map (a :: ·)
    else match r with
      | [] => none
      | b :: r =>
        if !isTail b then none
        else if 0xC2 ≤ a ∧ a ≤ 0xDF then (decodeUtf8 r).map (((a - 0xC0) * 64 + (b - 0x80)) :: ·)
        else match r with
          | [] => none
          | c :: r =>
            if !isTail c then none
            else if (a = 0xE0 ∧ 0xA0 ≤ b) ∨ (0xE1 ≤ a ∧ a ≤ 0xEF) then
              (decodeUtf8 r).map (((a - 0xE0) * 4096 + (b - 0x80) * 64 + (c - 0x80)) :: ·)
            else match r with
              | [] => none
              | d :: r =>
                if isTail d ∧ ((a = 0xF0 ∧ 0x90 ≤ b) ∨ (0xF1 ≤ a ∧ a ≤ 0xF3) ∨
                    (a = 0xF4 ∧ b ≤ 0x8F)) then
                  (decodeUtf8 r).map (((a - 0xF0) * 262144 + (b - 0x80) * 4096 +
                    (c - 0x80) * 64 + (d - 0x80)) :: ·)
                else none

/-- The 16-bit units of UTF-16. -/
def units16 (bigEndian : Bool) : List ℕ → Option (List ℕ)
  | [] => some []
  | [_] => none
  | a :: b :: r =>
    (units16 bigEndian r).map ((if bigEndian then a * 256 + b else b * 256 + a) :: ·)

/-- Surrogate pairs are joined, lone surrogates kept. -/
def joinSurrogates : List ℕ → Str
  | [] => []
  | [u] => [u]
  | u :: v :: r =>
    if Loads.isHigh u && Loads.isLow v then
      (0x10000 + (u - 0xD800) * 1024 + (v - 0xDC00)) :: joinSurrogates r
    else u :: joinSurrogates (v :: r)

/-- Decoding UTF-32. -/
def decodeUtf32 (bigEndian : Bool) : List ℕ → Option Str
  | [] => some []
  | a :: b :: c :: d :: r =>
    let u := if bigEndian then ((a * 256 + b) * 256 + c) * 256 + d
      else ((d * 256 + c) * 256 + b) * 256 + a
    if u < 0x110000 then (decodeUtf32 bigEndian r).map (u :: ·) else none
  | _ => none

/-- `b.decode(json.detect_encoding(b), "surrogatepass")`. -/
def decode (b : List ℕ) : Option Str :=
  let utf16 (be : Bool) (b : List ℕ) := (units16 be b).map joinSurrogates
  match b with
  | 0x00 :: 0x00 :: 0xFE :: 0xFF :: r => decodeUtf32 true r
  | 0xFF :: 0xFE :: 0x00 :: 0x00 :: r => decodeUtf32 false r
  | 0xFE :: 0xFF :: r => utf16 true r
  | 0xFF :: 0xFE :: r => utf16 false r
  | 0xEF :: 0xBB :: 0xBF :: r => decodeUtf8 r
  | x :: y :: z :: w :: _ =>
    if x = 0 then (if y ≠ 0 then utf16 true b else decodeUtf32 true b)
    else if y = 0 then (if z ≠ 0 ∨ w ≠ 0 then utf16 false b else decodeUtf32 false b)
    else decodeUtf8 b
  | [x, y] => if x = 0 then utf16 true b else if y = 0 then utf16 false b else decodeUtf8 b
  | b => decodeUtf8 b

/-- `json.loads(b)` of a `bytes`. -/
def loadsBytes (limit : ℕ) (b : Bytes) : Except LoadsError Value :=
  match decode (b.map UInt8.toNat) with
  | some s => loads limit s
  | none => .error .valueError

theorem loadsBytes_of_decode {limit : ℕ} {b : Bytes} {s : Str}
    (h : decode (b.map UInt8.toNat) = some s) : loadsBytes limit b = loads limit s := by
  rw [loadsBytes, h]

/-! ## `json.dumps` -/

/-- A character inside a JSON string. -/
def escapeChar (c : ℕ) : Str :=
  if c = 0x22 then lit "\\\""
  else if c = 0x5C then lit "\\\\"
  else if c = 0x0A then lit "\\n"
  else if c = 0x0D then lit "\\r"
  else if c = 0x09 then lit "\\t"
  else if c = 0x0C then lit "\\f"
  else if c = 0x08 then lit "\\b"
  else if c < 0x20 then lit "\\u00" ++ [hexDigit (c / 16), hexDigit (c % 16)]
  else [c]

def quote (s : Str) : Str := 0x22 :: s.flatMap escapeChar ++ [0x22]

/-- `json.dumps(v, ensure_ascii=False, separators=(",", ":"))`, with the doubles
that `dec` makes of decimals. -/
def dumps (dec : Decimal → Double) : Value → Str
  | .null => lit "null"
  | .bool true => lit "true"
  | .bool false => lit "false"
  | .int n => lit (toString n)
  | .float x => lit x.repr.text
  | .decimal d => lit (dec d).repr.text
  | .str s => quote s
  | .list xs => 0x5B :: listItems xs ++ [0x5D]
  | .dict items => 0x7B :: dictItems items ++ [0x7D]
where
  listItems : List Value → Str
    | [] => []
    | [v] => dumps dec v
    | v :: w :: r => dumps dec v ++ 0x2C :: listItems (w :: r)
  dictItems : List (Str × Value) → Str
    | [] => []
    | [(k, v)] => quote k ++ 0x3A :: dumps dec v
    | (k, v) :: p :: r => quote k ++ 0x3A :: dumps dec v ++ 0x2C :: dictItems (p :: r)

theorem escapeChar_scalar {c : ℕ} (h : isScalar c = true) :
    ∀ d ∈ escapeChar c, isScalar d = true := by
  have hex_scalar : ∀ n < 16, isScalar (hexDigit n) = true := by decide
  intro d hd
  unfold escapeChar at hd
  split_ifs at hd
  all_goals try exact isScalar_lit _ d hd
  · rcases List.mem_append.mp hd with hd | hd
    · exact isScalar_lit _ d hd
    · simp only [List.mem_cons, List.not_mem_nil, or_false] at hd
      rcases hd with rfl | rfl
      · exact hex_scalar _ (by omega)
      · exact hex_scalar _ (by omega)
  · simpa [List.mem_singleton.mp hd] using h

theorem quote_scalar {s : Str} (h : ∀ c ∈ s, isScalar c = true) :
    ∀ d ∈ quote s, isScalar d = true := by
  intro d hd
  simp only [quote, List.cons_append, List.mem_cons, List.mem_append, List.mem_flatMap,
    List.not_mem_nil, or_false] at hd
  rcases hd with rfl | ⟨c, hc, hd⟩ | rfl
  · rfl
  · exact escapeChar_scalar (h c hc) d hd
  · rfl

/-- **A dict is written without lone surrogates** when its names and values are. -/
theorem dumps_dict_scalar (dec : Decimal → Double) {items : List (Str × Value)}
    (h : ∀ p ∈ items, (∀ c ∈ p.1, isScalar c = true) ∧ ∀ c ∈ dumps dec p.2, isScalar c = true) :
    ∀ d ∈ dumps dec (.dict items), isScalar d = true := by
  have member : ∀ p ∈ items, ∀ d ∈ quote p.1 ++ 0x3A :: dumps dec p.2, isScalar d = true := by
    intro p hp d hd
    rcases List.mem_append.mp hd with hd | hd
    · exact quote_scalar (h p hp).1 d hd
    · rcases List.mem_cons.mp hd with rfl | hd
      · rfl
      · exact (h p hp).2 d hd
  have all : ∀ d ∈ dumps.dictItems dec items, isScalar d = true := by
    clear h
    induction items with
    | nil => intro d hd; simp [dumps.dictItems] at hd
    | cons p r ih =>
      have hp := member p (by simp)
      have ih := ih (fun q hq => member q (by simp [hq]))
      cases r with
      | nil => exact hp
      | cons q r =>
        intro d hd
        rw [dumps.dictItems, List.mem_append] at hd
        rcases hd with hd | hd
        · exact hp d hd
        · rcases List.mem_cons.mp hd with rfl | hd
          · rfl
          · exact ih d hd
  intro d hd
  rw [dumps] at hd
  simp only [List.cons_append, List.mem_cons, List.mem_append, List.not_mem_nil, or_false] at hd
  rcases hd with rfl | hd | rfl
  · rfl
  · exact all d hd
  · rfl

end Py
