/-! # Comparing names without regard to ASCII case

Configured names of policies and platforms match when they differ in the case of ASCII letters only.
`foldAscii` gives the lower-case form and `sameName` compares two names. -/

namespace PoolControl.Text

/-- An ASCII capital as its small letter, every other character as it is. -/
def foldAsciiChar (c : Char) : Char :=
  if 'A' ≤ c ∧ c ≤ 'Z' then Char.ofNat (c.toNat + 32) else c

/-- The text with its ASCII capitals made small. -/
def foldAscii (s : String) : String := String.ofList (s.toList.map foldAsciiChar)

/-- Whether two names agree up to the case of their ASCII letters. -/
def sameName (a b : String) : Bool := a.toList.map foldAsciiChar == b.toList.map foldAsciiChar

theorem sameName_iff {a b : String} : sameName a b = true ↔ foldAscii a = foldAscii b := by
  rw [sameName, beq_iff_eq, foldAscii, foldAscii, String.ofList_inj]

theorem sameName_self (a : String) : sameName a a = true := by simp [sameName]

theorem sameName_comm (a b : String) : sameName a b = sameName b a := by
  simp [sameName, Bool.beq_comm]

end PoolControl.Text
