import Metamodel.Blueprint

/-!
# What the checks of special roles establish

A property may be tagged for a role only if no ancestor fills it, the category has it, no other
property of the type is tagged for it and the property is no association. Each check says so in
its own way, about all properties tagged or about the first; `violation?_eq_none_iff` says what
they come to together.
-/

namespace Metamodel

namespace SpecialContext

variable {context : SpecialContext} {special : Special}

/-- The properties of the type tagged for a role. -/
def own (context : SpecialContext) (special : Special) : List PropSpec :=
  context.props.filter (·.tags.has special.tag)

theorem map_fst_tagged : (context.tagged special).map Prod.fst = context.own special := by
  have hsplit : context.own special =
      (context.props.zipIdx.map Prod.fst).filter (·.tags.has special.tag) := by
    rw [List.zipIdx_map_fst, own]
  rw [hsplit, List.filter_map]
  rfl

theorem first?_eq_head? : context.first? special = (context.own special).head? := by
  rw [first?, ← map_fst_tagged, List.head?_map]

theorem tagged_eq_nil_iff : context.tagged special = [] ↔ context.own special = [] := by
  rw [← map_fst_tagged, List.map_eq_nil_iff]

theorem blame_eq_none_iff {fault : Fault} :
    context.blame special fault = none ↔ context.own special = [] := by
  rw [blame, Option.map_eq_none_iff, first?_eq_head?, List.head?_eq_none_iff]

theorem taken?_eq_none_iff :
    context.taken? special = none ↔
      ((context.inherited.get special).isSome = true → context.own special = []) := by
  rw [taken?]
  cases context.inherited.get special <;> simp [blame_eq_none_iff]

theorem disallowed?_eq_none_iff :
    context.disallowed? special = none ↔
      (context.category.allowsSpecials = false → context.own special = []) := by
  rw [disallowed?]
  cases context.category.allowsSpecials <;> simp [blame_eq_none_iff]

theorem repeated?_eq_none_iff :
    context.repeated? special = none ↔ (context.own special).length ≤ 1 := by
  rw [repeated?, ← map_fst_tagged, List.length_map]
  cases context.tagged special with
  | nil => simp
  | cons first rest => cases rest <;> simp

theorem association?_eq_none_iff :
    context.association? special = none ↔
      (context.inherited.get special = none →
        ∀ prop ∈ (context.own special).head?, prop.kind.isAssociation = false) := by
  rw [association?, first?_eq_head?]
  cases context.inherited.get special with
  | some holder => simp
  | none =>
    cases (context.own special).head? with
    | none => simp
    | some prop => cases hkind : prop.kind.isAssociation <;> simp [hkind]

theorem slot_eq_inherited_iff :
    context.slot special = .inherited ↔ (context.inherited.get special).isSome = true := by
  rw [slot]
  cases context.inherited.get special <;> cases context.tagged special <;> simp

theorem slot_eq_empty_iff :
    context.slot special = .empty ↔
      (context.inherited.get special).isSome = false ∧ context.own special = [] := by
  rw [slot, ← tagged_eq_nil_iff]
  cases context.inherited.get special <;> cases context.tagged special <;> simp

/-- A slot that the type fills itself names one of its properties that is tagged for the role. -/
theorem exists_of_slot_own {index : Nat} (h : context.slot special = .own index) :
    (context.inherited.get special).isSome = false ∧
      ∃ spec, context.props[index]? = some spec ∧ spec ∈ context.own special := by
  rw [slot] at h
  split at h
  · cases h
  · next hinherited =>
    cases htagged : context.tagged special with
    | nil => simp [htagged] at h
    | cons entry rest =>
      obtain ⟨spec, position⟩ := entry
      simp only [htagged, Slot.own.injEq] at h
      subst h
      have hmem : (spec, position) ∈ context.tagged special := by simp [htagged]
      refine ⟨by simpa using hinherited, spec, ?_, ?_⟩
      · exact List.mem_zipIdx_iff_getElem?.1 (List.mem_filter.1 hmem).1
      · rw [← map_fst_tagged]
        exact List.mem_map_of_mem hmem

theorem own_ne_nil_of_slot {index : Nat} (h : context.slot special = .own index) :
    context.own special ≠ [] := by
  obtain ⟨-, spec, -, hspec⟩ := exists_of_slot_own h
  exact List.ne_nil_of_mem hspec

theorem missingIdentity?_eq_none_iff {config : Config} :
    context.missingIdentity? config = none ↔
      (context.category = .entity → config.requireEntityId = true →
        (context.inherited.get .identity).isSome = true ∨ context.own .identity ≠ []) := by
  rw [missingIdentity?]
  constructor
  · intro hnone hcategory hrequire
    refine Classical.byContradiction fun hmissing => ?_
    rw [not_or, Bool.not_eq_true, ne_eq, Classical.not_not,
      ← slot_eq_empty_iff] at hmissing
    simp [hcategory, hrequire, hmissing] at hnone
  · intro hfilled
    rw [if_neg]
    intro hmissing
    simp only [Bool.and_eq_true, decide_eq_true_eq, slot_eq_empty_iff] at hmissing
    obtain ⟨⟨hcategory, hinherited, hown⟩, hrequire⟩ := hmissing
    rcases hfilled hcategory hrequire with hsome | hne
    · rw [hinherited] at hsome
      cases hsome
    · exact hne hown

/-- No rule about special roles is broken exactly when none is tagged twice along the chain, none
is tagged that the category does not have, none is an association, and an entity has its
identity. -/
theorem violation?_eq_none_iff {config : Config} :
    context.violation? config = none ↔
      (∀ special, (context.inherited.get special).isSome = true → context.own special = []) ∧
        (∀ special, context.category.allowsSpecials = false → context.own special = []) ∧
        (∀ special, (context.own special).length ≤ 1) ∧
        (∀ special, ∀ prop ∈ context.own special, prop.kind.isAssociation = false) ∧
        (context.category = .entity → config.requireEntityId = true →
          (context.inherited.get .identity).isSome = true ∨ context.own .identity ≠ []) := by
  have hall {f : Special → Option Violation} :
      Special.all.findSome? f = none ↔ ∀ special, f special = none := by
    rw [List.findSome?_eq_none_iff]
    constructor
    · intro h special
      exact h special (by cases special <;> simp [Special.all])
    · intro h special _
      exact h special
  simp only [violation?, Option.or_eq_none_iff, hall, taken?_eq_none_iff, disallowed?_eq_none_iff,
    repeated?_eq_none_iff, association?_eq_none_iff, missingIdentity?_eq_none_iff, and_assoc]
  constructor
  · rintro ⟨htaken, hdisallowed, hrepeated, hassociation, hidentity⟩
    refine ⟨htaken, hdisallowed, hrepeated, ?_, hidentity⟩
    intro special prop hprop
    cases hinherited : context.inherited.get special with
    | some holder =>
      rw [htaken special (by rw [hinherited]; rfl)] at hprop
      cases hprop
    | none =>
      -- the only property tagged for the role is the first
      obtain ⟨only, honly⟩ : ∃ only, context.own special = [only] :=
        List.length_eq_one_iff.1
          (Nat.le_antisymm (hrepeated special) (List.length_pos_of_mem hprop))
      rw [honly, List.mem_singleton] at hprop
      exact hassociation special hinherited prop (by rw [honly, hprop]; rfl)
  · rintro ⟨htaken, hdisallowed, hrepeated, hassociation, hidentity⟩
    exact ⟨htaken, hdisallowed, hrepeated,
      fun special _ prop hprop => hassociation special prop (List.mem_of_mem_head? hprop),
      hidentity⟩

end SpecialContext

end Metamodel
