/-
Key policies.

A policy decides which keys are the same, which may be more than are equal.  Texts may be compared
without regard to the case of ASCII letters; for such a comparison the bytes of a text with its
letters made small serve as its digest.
-/

namespace WeightedSearch

/-- A rule for which keys are the same. -/
structure KeyPolicy (κ : Type) where
  /-- whether the two keys are the same -/
  same : κ → κ → Bool

namespace KeyPolicy

/-- Whether the rule is an equivalence. -/
structure Lawful {κ : Type} (p : KeyPolicy κ) : Prop where
  refl : ∀ a, p.same a a = true
  symm : ∀ a b, p.same a b = true → p.same b a = true
  trans : ∀ a b c, p.same a b = true → p.same b c = true → p.same a c = true

/-- Only equal keys are the same. -/
def equality {κ : Type} [DecidableEq κ] : KeyPolicy κ := ⟨fun a b => a = b⟩

theorem equality_lawful {κ : Type} [DecidableEq κ] : (equality : KeyPolicy κ).Lawful where
  refl := by simp [equality]
  symm := by simp [equality, eq_comm]
  trans := by simp [equality]

/-- Keys with the same image under a function may count as the same. -/
theorem lawful_beq {κ α : Type} [DecidableEq α] (f : κ → α) :
    (⟨fun a b => f a == f b⟩ : KeyPolicy κ).Lawful where
  refl := by simp
  symm := by
    intro a b h
    exact beq_iff_eq.2 (beq_iff_eq.1 h).symm
  trans := by
    intro a b c hab hbc
    exact beq_iff_eq.2 ((beq_iff_eq.1 hab).trans (beq_iff_eq.1 hbc))

/-- Whether two lists of characters differ at most in the case of ASCII letters. -/
def sameIgnoringCase : List Char → List Char → Bool
  | [], [] => true
  | c :: s, d :: t => c.toLower == d.toLower && sameIgnoringCase s t
  | _, _ => false

/-- Texts that differ at most in the case of ASCII letters are the same. -/
def asciiCase : KeyPolicy String := ⟨fun a b => sameIgnoringCase a.toList b.toList⟩

/-- A byte with an ASCII capital letter made small. -/
def lowerByte (b : UInt8) : UInt8 :=
  if 65 ≤ b && b ≤ 90 then b + 32 else b

/-- The UTF-8 bytes of a text with ASCII letters made small, and an end mark that occurs in no
text. -/
def caseDigest (a : String) : List UInt8 :=
  (a.toList.flatMap String.utf8EncodeChar).map lowerByte ++ [0xFF]

end KeyPolicy

end WeightedSearch
