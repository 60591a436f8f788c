import Mathlib.Logic.Relation
import Metamodel.Proofs.Graph.Growth

/-!
# Ancestors of a type

A type extends the type at the key of its ancestor, and inherits from whatever a chain of such
steps leads to. The merged view of a placed type has what the types along its chain declare
(`Places.mem_mergedProps_iff`), so it has all that its ancestors' views have.
-/

namespace Metamodel

open Relation (ReflTransGen TransGen)

namespace Graph

variable {graph : Graph} {type parent ancestor : TypeNode} {lineage : Lineage} {key : PropKey}

/-- A type has another as its direct ancestor. -/
def Extends (graph : Graph) (type parent : TypeNode) : Prop :=
  ∃ key, type.superType = some key ∧ graph.type? key = some parent

/-- A type has another among its ancestors. -/
def InheritsFrom (graph : Graph) : TypeNode → TypeNode → Prop :=
  TransGen graph.Extends

/-- A type without ancestor extends nothing. -/
theorem not_extends_of_root (hroot : type.superType = none) : ¬ graph.Extends type parent := by
  rintro ⟨key, hkey, -⟩
  rw [hroot] at hkey
  cases hkey

/-- A type extends one type at most. -/
theorem Extends.unique {other : TypeNode} (h : graph.Extends type parent)
    (h' : graph.Extends type other) : parent = other := by
  obtain ⟨key, hkey, hparent⟩ := h
  obtain ⟨key', hkey', hother⟩ := h'
  obtain rfl := Option.some.inj (hkey.symm.trans hkey')
  exact Option.some.inj (hparent.symm.trans hother)

/-- What stands above a placed type is the lineage of the type that it extends. -/
theorem Places.of_extends (h : graph.Places type lineage) (hextends : graph.Extends type parent) :
    parent.key.index < type.key.index ∧
      ∃ blueprint above, lineage = blueprint :: above ∧ graph.Places parent above := by
  cases h with
  | root _ hroot => exact absurd hextends (not_extends_of_root hroot)
  | child _ hparent hlt hplaces =>
    obtain rfl := hextends.unique ⟨_, hparent, hplaces.type?_key⟩
    exact ⟨hlt, _, _, rfl, hplaces⟩

/-- A placed type has what the types along its chain declare, and nothing else. -/
theorem Places.mem_mergedProps_iff (h : graph.Places type lineage) :
    key ∈ graph.mergedProps type.key ↔
      ∃ owner, ReflTransGen graph.Extends type owner ∧ key ∈ owner.declared := by
  induction h with
  | @root type _ hbuilds hroot =>
    rw [hbuilds.mergedProps_root hroot]
    constructor
    · intro hkey
      exact ⟨type, .refl, hkey⟩
    · rintro ⟨owner, hchain, hkey⟩
      rcases ReflTransGen.cases_head hchain with rfl | ⟨parent, hextends, -⟩
      · exact hkey
      · exact absurd hextends (not_extends_of_root hroot)
  | @child type parent _ _ hbuilds hparent hlt hplaces ih =>
    have hextends : graph.Extends type parent := ⟨_, hparent, hplaces.type?_key⟩
    rw [hbuilds.mergedProps_child hparent hlt, (mergeLevel_perm graph _ _).mem_iff,
      List.mem_append, ih]
    constructor
    · rintro (⟨owner, hchain, hkey⟩ | hkey)
      · exact ⟨owner, .head hextends hchain, hkey⟩
      · exact ⟨type, .refl, hkey⟩
    · rintro ⟨owner, hchain, hkey⟩
      rcases ReflTransGen.cases_head hchain with rfl | ⟨next, hnext, hrest⟩
      · exact .inr hkey
      · obtain rfl := hnext.unique hextends
        exact .inl ⟨owner, hrest, hkey⟩

/-- A placed type has what its ancestors have. -/
theorem Places.mem_of_inheritsFrom (h : graph.Places type lineage) {above : Lineage}
    (h' : graph.Places ancestor above) (hinherits : graph.InheritsFrom type ancestor)
    (hkey : key ∈ graph.mergedProps ancestor.key) : key ∈ graph.mergedProps type.key := by
  obtain ⟨owner, hchain, hdeclared⟩ := h'.mem_mergedProps_iff.1 hkey
  exact h.mem_mergedProps_iff.2 ⟨owner, hinherits.to_reflTransGen.trans hchain, hdeclared⟩

/-- The ancestors of a placed type are placed. -/
theorem Places.exists_of_inheritsFrom (h : graph.Places type lineage)
    (hinherits : graph.InheritsFrom type ancestor) : ∃ above, graph.Places ancestor above := by
  induction hinherits with
  | single hextends =>
    obtain ⟨-, _, above, -, hplaces⟩ := h.of_extends hextends
    exact ⟨above, hplaces⟩
  | tail _ hextends ih =>
    obtain ⟨_, hplaces⟩ := ih
    obtain ⟨-, _, above, -, hplaces⟩ := hplaces.of_extends hextends
    exact ⟨above, hplaces⟩

end Graph

end Metamodel
