import Mathlib.Data.String.Basic

/-!
# Identifiers

Tenants, models, backends, nodes and requests are named by identifiers: 1 to 128 bytes,
each an ASCII letter or digit or one of `_`, `-` and `.`.  Every module of the source has
its own copy of the check.
-/

namespace TrustRouter

/-- A byte an identifier may contain. -/
def isIdentifierChar (c : Char) : Bool := c.isAlphanum || c == '_' || c == '-' || c == '.'

/-- The length is in bytes; a character outside ASCII has only bytes that are refused. -/
def isIdentifier (value : String) : Bool :=
  !value.isEmpty && value.utf8ByteSize ≤ 128 && value.toList.all isIdentifierChar

/-- A colon separates identifiers. -/
theorem colon_notMem_of_isIdentifier {value : String} (identifier : isIdentifier value = true) :
    ':' ∉ value.toList := by
  intro mem
  rw [isIdentifier, Bool.and_eq_true, List.all_eq_true] at identifier
  exact absurd (identifier.2 ':' mem) (by decide)

/-- What is written before a separator, and does not contain it, can be read back. -/
theorem append_separator_inj {α : Type*} {separator : α} {first second rest rest' : List α}
    (none : separator ∉ first) (none' : separator ∉ second)
    (same : first ++ separator :: rest = second ++ separator :: rest') :
    first = second ∧ rest = rest' := by
  induction first generalizing second with
  | nil =>
      cases second with
      | nil => exact ⟨rfl, List.tail_eq_of_cons_eq same⟩
      | cons c second =>
          have head : separator = c := List.head_eq_of_cons_eq same
          exact absurd (head ▸ List.mem_cons_self) none'
  | cons c first ih =>
      cases second with
      | nil =>
          have head : c = separator := List.head_eq_of_cons_eq same
          exact absurd (head ▸ List.mem_cons_self) none
      | cons d second =>
          rw [List.mem_cons, not_or] at none none'
          obtain ⟨rfl, rest⟩ := ih none.2 none'.2 (List.tail_eq_of_cons_eq same)
          exact ⟨congrArg (· :: first) (List.head_eq_of_cons_eq same), rest⟩

end TrustRouter
