import Metamodel.Proofs.Declaration.Legal
import Metamodel.Proofs.Lineage

/-!
# Lineages in sources that agree

What becomes of a declaration depends on what it asks of its source, and that is little: which of
its interfaces are immutable types, and what its members refer to (`Source.AgreesOn`). Two sources
may differ elsewhere. Names under which they have the same declarations and agree on what these ask
have the same lineages (`AgreesWithin.hasLineage`).
-/

namespace Metamodel

namespace Source

/-- Two sources answer in the same way what a declaration asks of them: which of its interfaces are
immutable types, and what its members refer to. -/
structure AgreesOn (source other : Source) (declaration : Declaration) : Prop where
  isImmutable_eq : ∀ name ∈ declaration.interfaces, source.isImmutable name = other.isImmutable name
  referent_eq : ∀ member ∈ declaration.members, member.referent? source = member.referent? other

namespace AgreesOn

variable {source other : Source} {config : Config} {declaration : Declaration}
  (h : source.AgreesOn other declaration)
include h

theorem header_eq :
    Header.ofDeclaration source declaration = Header.ofDeclaration other declaration := by
  have hancestors : declaration.ancestors source = declaration.ancestors other :=
    List.filter_congr h.isImmutable_eq
  simp only [Header.ofDeclaration, Declaration.ancestor?, hancestors]

/-- A declaration has the same properties, or breaks the same rule. -/
theorem propSpecs_eq (last : Nat) :
    declaration.propSpecs source last = declaration.propSpecs other last := by
  have hspec : ∀ member ∈ declaration.members, ∀ typeName id,
      member.spec source typeName id = member.spec other typeName id := by
    intro member hmember typeName id
    have hreferent := h.referent_eq member hmember
    have htarget : member.refersToTarget source = member.refersToTarget other := by
      rw [Member.refersToTarget, hreferent, ← Member.refersToTarget]
    have hkind : member.kind source = member.kind other := by
      rw [Member.kind, htarget, ← Member.kind]
    rw [Member.spec, hreferent, htarget, hkind, ← Member.spec]
  refine Except.mapM_congr fun entry hentry => ?_
  have hmember := (declaration.propertyMembers_perm.mem_iff).1 (List.fst_mem_of_mem_zipIdx hentry)
  exact hspec _ (List.mem_filter.1 hmember).1 _ _

theorem blueprint_eq (header : Header) (inherited : Option Inherited) :
    Blueprint.ofDeclaration source config declaration header inherited =
      Blueprint.ofDeclaration other config declaration header inherited := by
  simp only [Blueprint.ofDeclaration, h.propSpecs_eq]

end AgreesOn

/-- Two sources have the same declarations under some names and agree on what these ask. The
interfaces of such declarations are among the names. -/
structure AgreesWithin (source other : Source) (within : String → Prop) : Prop where
  declaration?_eq : ∀ name, within name → source.declaration? name = other.declaration? name
  on : ∀ {name : String} {declaration : Declaration}, within name →
    source.declaration? name = some declaration → source.AgreesOn other declaration
  closed : ∀ {name : String} {declaration : Declaration}, within name →
    source.declaration? name = some declaration →
    ∀ ancestor ∈ declaration.interfaces, within ancestor

/-- Such names have the same lineages. -/
theorem AgreesWithin.hasLineage {source other : Source} {config : Config} {within : String → Prop}
    (h : source.AgreesWithin other within) {name : String} {lineage : Lineage}
    (hname : within name) (hlineage : source.HasLineage config name lineage) :
    other.HasLineage config name lineage := by
  induction hlineage with
  | root hdeclared hheader hroot hblueprint =>
    have hagrees := h.on hname hdeclared
    rw [h.declaration?_eq _ hname] at hdeclared
    rw [hagrees.header_eq] at hheader
    rw [hagrees.blueprint_eq] at hblueprint
    exact .root hdeclared hheader hroot hblueprint
  | child hdeclared hheader hancestor _ hblueprint ih =>
    have hagrees := h.on hname hdeclared
    have hup := h.closed hname hdeclared _ (Header.mem_interfaces hheader hancestor)
    rw [h.declaration?_eq _ hname] at hdeclared
    rw [hagrees.header_eq] at hheader
    rw [hagrees.blueprint_eq] at hblueprint
    exact .child hdeclared hheader hancestor (ih hup) hblueprint

end Source

end Metamodel
