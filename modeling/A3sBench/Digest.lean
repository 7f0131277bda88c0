import A3sBench.Result
import A3sBench.Text

/-!
# SHA-256 digest strings

Four places of the source test the same shape: the prefix `sha256:` and then
exactly 64 hexadecimal characters.
-/

namespace A3sBench

/-- The hexadecimal part of a well formed digest, or one of two messages. -/
def digestHexWith (prefixMessage hexMessage value : String) : Result (List Char) := do
  let hex ← okOr (Text.stripPrefix "sha256:" value) prefixMessage
  ensure (hex.length = 64 ∧ hex.all Text.isHexDigit = true) hexMessage
  pure hex

theorem digestHexWith_ok_iff {prefixMessage hexMessage value : String} {hex : List Char} :
    digestHexWith prefixMessage hexMessage value = .ok hex ↔
      value = "sha256:" ++ String.ofList hex ∧ hex.length = 64 ∧
        hex.all Text.isHexDigit = true := by
  simp only [digestHexWith, Result.bind_ok_iff, Result.okOr_ok_iff, Text.stripPrefix_eq_some_iff,
    Result.exists_unit_iff, Result.ensure_ok_iff, Result.pure_ok_iff]
  constructor
  · rintro ⟨_, hvalue, hhex, rfl⟩
    exact ⟨hvalue, hhex⟩
  · rintro ⟨hvalue, hhex⟩
    exact ⟨hex, hvalue, hhex, rfl⟩

namespace LockIdentity

/-- `lock_identity::validate_digest`. -/
def validateDigest (value : String) : Result Unit := do
  let _ ← digestHexWith "lock digest must use sha256"
    "lock digest must contain exactly 64 hexadecimal characters" value
  pure ()

theorem validateDigest_ok_iff {value : String} :
    validateDigest value = .ok () ↔ ∃ hex : List Char, value = "sha256:" ++ String.ofList hex ∧
      hex.length = 64 ∧ hex.all Text.isHexDigit = true := by
  simp [validateDigest, digestHexWith_ok_iff]

end LockIdentity

end A3sBench
