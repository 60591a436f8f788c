import Metamodel.Proofs.Declaration.Legal

/-!
# Suffixes

A suffix ends the name of a generated class, so it has to be a fragment of an identifier.
`Naming.fault?_eq_none_iff` says that the check of a naming asks for this of every suffix and for
nothing else, `Naming.fault?_eq_some_iff` which suffix it reports otherwise.
-/

namespace Metamodel

namespace Text

/-- What may follow in an identifier: letters, digits and underscores of ASCII, at least one. -/
structure IsFragment (text : String) : Prop where
  ne_empty : text ≠ ""
  chars : ∀ c ∈ text.toList, c.isAlphanum = true ∨ c = '_'

/-- There is no dot in a fragment. -/
theorem IsFragment.dot_not_mem {text : String} (h : IsFragment text) : '.' ∉ text.toList := by
  intro hdot
  simpa using h.chars '.' hdot

/-- Two fragments together are one. -/
theorem IsFragment.append {text other : String} (h : IsFragment text) (h' : IsFragment other) :
    IsFragment (text ++ other) where
  ne_empty hempty := h.ne_empty (String.append_eq_empty_iff.1 hempty).1
  chars c hc := by
    rw [String.toList_append, List.mem_append] at hc
    exact hc.elim (h.chars c) (h'.chars c)

end Text

open Text

/-- The fault of a suffix that is no fragment. -/
def SuffixFault.ofSuffix (role : SuffixRole) (suffix : String) : SuffixFault :=
  if suffix = "" then .empty role else .notFragment role suffix

namespace Naming

variable {naming : Naming} {role : SuffixRole}

/-- A suffix is checked by its characters. -/
theorem isFragment_iff {text : String} :
    isFragment text = true ↔ ∀ c ∈ text.toList, c.isAlphanum = true ∨ c = '_' := by
  simp [isFragment]

instance {text : String} : Decidable (IsFragment text) :=
  decidable_of_iff (text ≠ "" ∧ isFragment text = true)
    ⟨fun h => ⟨h.1, isFragment_iff.1 h.2⟩, fun h => ⟨h.ne_empty, isFragment_iff.2 h.chars⟩⟩

/-- A fragment has no fault. -/
theorem suffixFault?_eq_none_iff :
    naming.suffixFault? role = none ↔ IsFragment (naming.suffix role) := by
  rw [suffixFault?]
  split
  · next hempty =>
    simp only [reduceCtorEq, false_iff]
    exact fun h => h.ne_empty hempty
  · next hne =>
    split
    · next hchars =>
      simp only [reduceCtorEq, false_iff]
      intro h
      rw [isFragment_iff.2 h.chars] at hchars
      cases hchars
    · next hchars =>
      simp only [true_iff]
      exact ⟨hne, isFragment_iff.1 (by simpa using hchars)⟩

/-- A suffix that is no fragment has the fault of its text. -/
theorem suffixFault?_of_not_isFragment (h : ¬ IsFragment (naming.suffix role)) :
    naming.suffixFault? role = some (.ofSuffix role (naming.suffix role)) := by
  rw [suffixFault?, SuffixFault.ofSuffix]
  split
  · rfl
  · next hne =>
    have hchars : isFragment (naming.suffix role) = false := by
      rw [Bool.eq_false_iff]
      exact fun hchars => h ⟨hne, isFragment_iff.1 hchars⟩
    simp [hchars]

/-- A naming has no fault exactly when all its suffixes are fragments. -/
theorem fault?_eq_none_iff :
    naming.fault? = none ↔ ∀ role, IsFragment (naming.suffix role) := by
  have hall (role : SuffixRole) : role ∈ SuffixRole.all := by cases role <;> decide
  simp only [fault?, List.findSome?_eq_none_iff, suffixFault?_eq_none_iff, hall, true_imp_iff]

/-- Otherwise its fault is that of the first suffix that is none. -/
theorem fault?_eq_some_iff {fault : SuffixFault} :
    naming.fault? = some fault ↔
      ∃ before role after, SuffixRole.all = before ++ role :: after ∧
        (∀ earlier ∈ before, IsFragment (naming.suffix earlier)) ∧
        ¬ IsFragment (naming.suffix role) ∧ fault = .ofSuffix role (naming.suffix role) := by
  have hsome (role : SuffixRole) : naming.suffixFault? role = some fault ↔
      ¬ IsFragment (naming.suffix role) ∧ fault = .ofSuffix role (naming.suffix role) := by
    by_cases hfragment : IsFragment (naming.suffix role)
    · rw [suffixFault?_eq_none_iff.2 hfragment]
      simp [hfragment]
    · rw [suffixFault?_of_not_isFragment hfragment]
      simp [hfragment, eq_comm]
  simp only [fault?, List.findSome?_eq_some_iff, hsome, suffixFault?_eq_none_iff]
  constructor
  · rintro ⟨before, role, after, hall, hrole, hbefore⟩
    exact ⟨before, role, after, hall, hbefore, hrole⟩
  · rintro ⟨before, role, after, hall, hbefore, hrole⟩
    exact ⟨before, role, after, hall, hrole, hbefore⟩

end Naming

end Metamodel
