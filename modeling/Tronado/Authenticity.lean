import Tronado.Webhook

/-!
# Webhook authenticity

What a receiver relies on (`Authentic`): verification always answers, and says yes
exactly when the header holds the hex of the digest, whitespace around it and case
aside (`Signed`); a callback is constructed exactly when it is signed and parses;
everything unsigned is rejected alike, and a signed body that does not parse is a
`TronadoWebhookError`.

* `verifySignature_ok`, `verifySignature_error`: verification answers exactly on
  headers that are ASCII once lowered.
* `authentic_iff`: on exactly which inputs all of it holds.
-/

namespace Tronado

open Py Schema

/-- The header holds the hex of the digest, whitespace around it and case aside. -/
def Signed (hmacSha512 : Bytes → Bytes → Digest) (body : Bytes) (header : Option Str)
    (key : Bytes) : Prop :=
  ∃ h, header = some h ∧ (strip h).map asciiLower = hex (hmacSha512 key body).val

/-- The header is ASCII between its surrounding whitespace, KELVIN SIGN aside. -/
def AsciiHeader (header : Option Str) : Prop :=
  ∀ h, header = some h → ∀ c ∈ strip h, c < 128 ∨ c = 0x212A

theorem isAscii_hex (b : Bytes) : isAscii (hex b) = true := by
  rw [isAscii, List.all_eq_true]
  intro c hc
  rcases mem_hex hc with h | h <;> simp <;> omega

theorem hex_ne_nil (d : Digest) : hex d.val ≠ [] := by
  intro h
  obtain ⟨b, hb⟩ := d
  cases b with
  | nil => simp at hb
  | cons x b => simp [hex] at h

section

variable [Runtime]

/-- Comparing without case is comparing what is lowered, for a hex text. -/
theorem lower_eq_hex_iff (s : Str) (b : Bytes) : lower s = hex b ↔ s.map asciiLower = hex b := by
  refine lower_eq_iff Runtime.caseTable ?_ ?_
  · intro d hd
    rcases mem_hex hd with h | h <;> omega
  · intro hk
    rcases mem_hex hk with h | h <;> omega

variable (hmacSha512 : Bytes → Bytes → Digest) (body key : Bytes) {header : Option Str}

/-- **Verification is exact** on a header that is ASCII. -/
theorem verifySignature_ok (h : AsciiHeader header) :
    ∃ valid, verifySignature hmacSha512 (.bytes body) header (.bytes key) = .ok valid ∧
      (valid = true ↔ Signed hmacSha512 body header key) := by
  cases header with
  | none => exact ⟨false, rfl, by simp [Signed]⟩
  | some s =>
    cases s with
    | nil =>
      refine ⟨false, rfl, ⟨fun h => (nomatch h), ?_⟩⟩
      rintro ⟨s, hs, he⟩
      cases hs
      exact absurd he.symm (hex_ne_nil _)
    | cons c r =>
      have ha : isAscii (lower (strip (c :: r))) = true :=
        (isAscii_lower_iff _ _).mpr (h _ rfl)
      refine ⟨hex (hmacSha512 key body).val == lower (strip (c :: r)), ?_, ?_⟩
      · show compareDigest (hex (hmacSha512 key body).val) (lower (strip (c :: r))) = _
        rw [compareDigest, isAscii_hex, ha]
        rfl
      · rw [beq_iff_eq, eq_comm, lower_eq_hex_iff]
        simp [Signed]

/-- On any other header `hmac.compare_digest` raises `TypeError`. -/
theorem verifySignature_error (h : ¬ AsciiHeader header) :
    verifySignature hmacSha512 (.bytes body) header (.bytes key) = .error .typeError := by
  unfold AsciiHeader at h
  simp only [not_forall] at h
  obtain ⟨s, rfl, c, hc, hne⟩ := h
  have ha : isAscii (lower (strip s)) = false := by
    rw [Bool.eq_false_iff]
    exact fun ht => hne ((isAscii_lower_iff _ _).mp ht c hc)
  cases s with
  | nil => simp [strip] at hc
  | cons c' r =>
    show compareDigest (hex (hmacSha512 key body).val) (lower (strip (c' :: r))) = _
    rw [compareDigest, ha, Bool.and_false]
    rfl

/-- Verification always answers, and exactly. -/
structure ExactVerification (header : Option Str) : Prop where
  total : ∃ valid, verifySignature hmacSha512 (.bytes body) header (.bytes key) = .ok valid
  exact : verifySignature hmacSha512 (.bytes body) header (.bytes key) = .ok true ↔
    Signed hmacSha512 body header key

/-- A callback is constructed when it is verified and parses, and from nothing else. -/
structure ExactConstruction {α : Type}
    (construct : (Bytes → Bytes → Digest) → RawBody → Option Str → RawBody → Except PyErr α)
    (parseBody : RawBody → Except PyErr α) (header : Option Str) : Prop where
  accepts : ∀ payload,
    construct hmacSha512 (.bytes body) header (.bytes key) = .ok payload ↔
      verifySignature hmacSha512 (.bytes body) header (.bytes key) = .ok true ∧
        parseBody (.bytes body) = .ok payload
  /-- The exception says nothing about the body. -/
  rejects : ¬ Signed hmacSha512 body header key →
    construct hmacSha512 (.bytes body) header (.bytes key) = .error invalidSignature
  malformed : Signed hmacSha512 body header key → ∀ e,
    construct hmacSha512 (.bytes body) header (.bytes key) = .error e →
      ∃ m, e = .tronado (.webhook m)

/-- What a receiver of callbacks relies on. -/
structure Authentic (header : Option Str) : Prop where
  verification : ExactVerification hmacSha512 body key header
  event : ExactConstruction hmacSha512 body key constructEvent parseCallback header
  disputeEvent : ExactConstruction hmacSha512 body key constructDisputeEvent parseDisputeCallback
    header

variable {hmacSha512 body key}

theorem exactConstruction {α : Type} {model : Model α} {kind : String}
    (hascii : AsciiHeader header)
    (hbody : Signed hmacSha512 body header key →
      loadsRaw (.bytes body) ≠ .error .recursionError) :
    ExactConstruction hmacSha512 body key (constructWith (fun raw => parse raw model kind))
      (fun raw => parse raw model kind) header := by
  obtain ⟨valid, hv, hiff⟩ := verifySignature_ok hmacSha512 body key hascii
  have hc := constructWith_of_verified (fun raw => parse raw model kind) hv
  constructor
  · intro payload
    rw [hc, hv]
    cases valid <;> simp
  · intro hs
    rw [hc, if_neg (fun ht => hs (hiff.mp ht))]
  · intro hs e he
    rw [hc, if_pos (hiff.mpr hs)] at he
    rcases error_of_parse he with h | h
    · exact h
    · exact absurd h.1 (hbody hs)

/-- **When webhooks are authentic.**  Exactly when the header is ASCII, so that
`hmac.compare_digest` takes it, and a body that is signed does not nest too
deeply for `json.loads`. -/
theorem authentic_iff (hmacSha512 : Bytes → Bytes → Digest) (body : Bytes) (header : Option Str)
    (key : Bytes) :
    Authentic hmacSha512 body key header ↔
      AsciiHeader header ∧ (Signed hmacSha512 body header key →
        loadsRaw (.bytes body) ≠ .error .recursionError) := by
  constructor
  · intro h
    have hascii : AsciiHeader header := by
      by_contra hn
      obtain ⟨valid, hv⟩ := h.verification.total
      rw [verifySignature_error hmacSha512 body key hn] at hv
      cases hv
    refine ⟨hascii, ?_⟩
    intro hs hr
    have hv := h.verification.exact.mpr hs
    have hc := constructWith_of_verified parseCallback hv
    rw [if_pos rfl, parseCallback, parse_of_recursionError _ _ hr] at hc
    obtain ⟨m, hm⟩ := h.event.malformed hs _ hc
    cases hm
  · rintro ⟨hascii, hbody⟩
    obtain ⟨valid, hv, hiff⟩ := verifySignature_ok hmacSha512 body key hascii
    refine ⟨⟨⟨valid, hv⟩, ?_⟩, exactConstruction hascii hbody, exactConstruction hascii hbody⟩
    rw [hv, Except.ok.injEq, hiff]

end

/-- A header of one letter outside ASCII makes verification raise `TypeError`. -/
theorem not_authentic_nonAscii :
    ¬ ∀ (_ : Runtime) (hmacSha512 : Bytes → Bytes → Digest) (body : Bytes) (header : Option Str)
      (key : Bytes), Authentic hmacSha512 body key header := by
  intro h
  let _ := Runtime.sample
  have ha := h Runtime.sample (fun _ _ => ⟨List.replicate 64 0, rfl⟩) [] (some (lit "é")) []
  obtain ⟨valid, hv⟩ := ha.verification.total
  cases hv

end Tronado
