import Metamodel.Proofs.Declaration.Legal
import Metamodel.Proofs.Lineage

/-!
# Numbers along a lineage

The properties of a lineage are numbered level by level, from the top down, and each level goes on
where the one above it stopped. So `Lineage.byLevel` is numbered 1, 2, 3 and so on
(`HasLineage.ids_byLevel`), it is the view in the order of numbers (`HasLineage.propsById_eq`), and
the merged view is the same list with the identities moved to its front
(`HasLineage.mergedProps_eq`).
-/

namespace Metamodel

/-- The largest of the numbers from 1 up to some number is that number. -/
theorem List.Perm.max?_range' {ids : List Nat} {n : Nat} (h : ids.Perm (List.range' 1 n)) :
    ids.max?.getD 0 = n := by
  cases n with
  | zero =>
    rw [List.range'_zero, List.perm_nil] at h
    rw [h]
    rfl
  | succ n =>
    have hmax : ids.max? = some (n + 1) := by
      rw [List.max?_eq_some_iff]
      simp only [h.mem_iff, List.mem_range'_1]
      exact ⟨by omega, fun id hid => by omega⟩
    rw [hmax]
    rfl

/-- A list stays as it is when what passes a test is moved to its front, if it is there already. -/
theorem List.filter_append_filter_not {α : Type} {p : α → Bool} {first rest : List α}
    (hfirst : ∀ item ∈ first, p item = true) (hrest : ∀ item ∈ rest, p item = false) :
    (first ++ rest).filter p ++ (first ++ rest).filter (!p ·) = first ++ rest := by
  have hnone : rest.filter p = [] := List.filter_eq_nil_iff.2 (by simpa using hrest)
  have hall : first.filter (!p ·) = [] := List.filter_eq_nil_iff.2 (by simpa using hfirst)
  rw [List.filter_append, List.filter_append, List.filter_eq_self.2 hfirst, hnone, hall,
    List.filter_eq_self.2 (by simpa using hrest), List.append_nil, List.nil_append]

/-! ### The properties of one declaration -/

/-- A legal member with a body is no identity. -/
theorem Member.not_id_of_hasBody {member : Member} (hbody : member.hasBody = true)
    (h : member.bodyTag? = none) : member.tags.has .id = false := by
  rw [TagSet.has, List.any_eq_false]
  intro tag htag
  rw [bodyTag?_eq_none_iff.1 h hbody tag htag]
  decide

namespace Declaration

variable {source : Source} {declaration : Declaration} {last : Nat} {props : List PropSpec}

/-- The properties of a declaration are numbered one after the other. -/
theorem ids_of_propSpecs (h : declaration.propSpecs source last = .ok props) :
    props.map (·.id) = List.range' (last + 1) props.length := by
  rw [eq_of_propSpecs h, List.map_map, List.length_map, List.length_zipIdx,
    ← List.zipIdx_map_snd]
  rfl

/-- Identities come first among the properties of a legal declaration. -/
theorem filter_isId_of_propSpecs (h : declaration.propSpecs source last = .ok props)
    (hbodies : ∀ member ∈ declaration.members, member.bodyTag? = none) :
    props.filter (·.isId) ++ props.filter (!·.isId) = props := by
  let ids := declaration.members.filter Member.isIdentity
  let others := declaration.members.filter Member.isExpression ++
    declaration.members.filter Member.isPlain
  have hids : ∀ member ∈ ids, member.tags.has .id = true := by
    intro member hmember
    have hidentity := (List.mem_filter.1 hmember).2
    rw [Member.isIdentity, Bool.and_eq_true] at hidentity
    exact hidentity.2
  have hothers : ∀ member ∈ others, member.tags.has .id = false := by
    intro member hmember
    rcases List.mem_append.1 hmember with hexpression | hplain
    · obtain ⟨hmem, hexpression⟩ := List.mem_filter.1 hexpression
      rw [Member.isExpression, Bool.and_eq_true] at hexpression
      exact Member.not_id_of_hasBody hexpression.1 (hbodies member hmem)
    · have hplain := (List.mem_filter.1 hplain).2
      rw [Member.isPlain, Bool.and_eq_true, Bool.not_eq_true', Bool.not_eq_true'] at hplain
      exact hplain.2
  have hsplit : declaration.propertyMembers = ids ++ others := List.append_assoc ..
  rw [eq_of_propSpecs h, hsplit, List.zipIdx_append, List.map_append]
  apply List.filter_append_filter_not
  · intro spec hspec
    obtain ⟨⟨member, id⟩, hentry, rfl⟩ := List.mem_map.1 hspec
    exact hids member (List.fst_mem_of_mem_zipIdx hentry)
  · intro spec hspec
    obtain ⟨⟨member, id⟩, hentry, rfl⟩ := List.mem_map.1 hspec
    exact hothers member (List.fst_mem_of_mem_zipIdx hentry)

end Declaration

/-! ### The properties of a lineage -/

namespace Lineage

/-- The properties of a lineage level by level, from the top down. -/
def byLevel : Lineage → List LineageProp
  | [] => []
  | blueprint :: above => byLevel above ++ blueprint.ownProps

/-- Level by level a lineage has the properties of its merged view. -/
theorem mergedProps_perm_byLevel (lineage : Lineage) :
    lineage.mergedProps.Perm lineage.byLevel := by
  induction lineage with
  | nil => exact .refl _
  | cons blueprint above ih => exact (mergedProps_perm blueprint above).trans (ih.append_right _)

/-- Where the properties are numbered from 1 on, the largest number is that of the last one. -/
theorem maxPropId_eq_of_ids {lineage : Lineage}
    (h : lineage.byLevel.map (·.spec.id) = List.range' 1 lineage.byLevel.length) :
    lineage.maxPropId = lineage.byLevel.length := by
  rw [maxPropId]
  exact List.Perm.max?_range' (h ▸ lineage.mergedProps_perm_byLevel.map _)

end Lineage

variable {source : Source} {config : Config}

namespace Source.HasLineage

/-- The own properties of a blueprint are numbered from the largest number above it on. -/
theorem ids_ownProps {name : String} {blueprint : Blueprint} {above : Lineage}
    (h : source.HasLineage config name (blueprint :: above)) :
    blueprint.ownProps.map (·.spec.id) =
      List.range' (Lineage.maxPropId above + 1) blueprint.ownProps.length := by
  obtain ⟨declaration, header, -, -, hblueprint⟩ := h.exists_declaration
  obtain ⟨-, -, props, hprops, -, -, rfl⟩ := Blueprint.ofDeclaration_eq_ok_iff.1 hblueprint
  rw [Blueprint.ownProps, List.map_map, List.length_map, ← Lineage.maxPropId_inherited?]
  exact Declaration.ids_of_propSpecs hprops

/-- Identities come first among the own properties of a blueprint. -/
theorem filter_isId_ownProps {name : String} {blueprint : Blueprint} {above : Lineage}
    (h : source.HasLineage config name (blueprint :: above)) :
    blueprint.ownProps.filter (·.spec.isId) ++ blueprint.ownProps.filter (!·.spec.isId) =
      blueprint.ownProps := by
  obtain ⟨declaration, header, -, -, hblueprint⟩ := h.exists_declaration
  obtain ⟨-, hmembers, props, hprops, -, -, rfl⟩ := Blueprint.ofDeclaration_eq_ok_iff.1 hblueprint
  have hfirst := Declaration.filter_isId_of_propSpecs hprops
    (memberViolation?_eq_none_iff.1 hmembers).2.2
  rw [Blueprint.ownProps, List.filter_map, List.filter_map, ← List.map_append]
  exact congrArg _ hfirst

/-- Level by level the properties of a lineage are numbered from 1 on. -/
theorem ids_byLevel {name : String} {lineage : Lineage}
    (h : source.HasLineage config name lineage) :
    lineage.byLevel.map (·.spec.id) = List.range' 1 lineage.byLevel.length := by
  induction lineage generalizing name with
  | nil => rfl
  | cons blueprint above ih =>
    have habove : (Lineage.byLevel above).map (·.spec.id) =
        List.range' 1 (Lineage.byLevel above).length := by
      rcases h.above with rfl | ⟨ancestor, habove⟩
      · rfl
      · exact ih habove
    rw [Lineage.byLevel, List.map_append, habove, h.ids_ownProps,
      Lineage.maxPropId_eq_of_ids habove, List.length_append, Nat.add_comm _ 1,
      List.range'_append_1]

/-- The largest number of a lineage is the number of its properties. -/
theorem maxPropId_eq {name : String} {lineage : Lineage}
    (h : source.HasLineage config name lineage) :
    lineage.maxPropId = lineage.mergedProps.length := by
  rw [Lineage.maxPropId_eq_of_ids h.ids_byLevel, lineage.mergedProps_perm_byLevel.length_eq]

/-- In the order of numbers the properties of a lineage stand level by level. -/
theorem propsById_eq {name : String} {lineage : Lineage}
    (h : source.HasLineage config name lineage) : lineage.propsById = lineage.byLevel := by
  have hperm : lineage.propsById.Perm lineage.byLevel :=
    (List.mergeSort_perm ..).trans lineage.mergedProps_perm_byLevel
  have hordered : (lineage.byLevel.map (·.spec.id)).Pairwise (· < ·) := by
    rw [h.ids_byLevel]
    exact List.pairwise_lt_range' 1
  have hnodup : (lineage.byLevel.map (·.spec.id)).Nodup := hordered.imp Nat.ne_of_lt
  have hsorted : lineage.propsById.Pairwise fun a b => a.spec.id ≤ b.spec.id := by
    refine (List.pairwise_mergeSort ?_ ?_ lineage.mergedProps).imp of_decide_eq_true
    · simp only [decide_eq_true_eq]
      omega
    · simp only [Bool.or_eq_true, decide_eq_true_eq]
      omega
  refine List.Perm.eq_of_pairwise ?_ hsorted ?_ hperm
  · intro a b ha hb hab hba
    exact List.inj_on_of_nodup_map hnodup (hperm.mem_iff.1 ha) hb (Nat.le_antisymm hab hba)
  · exact (List.pairwise_map.1 hordered).imp Nat.le_of_lt

/-- The merged view of a lineage has the same order, but for the identities, which come first. -/
theorem mergedProps_eq {name : String} {lineage : Lineage}
    (h : source.HasLineage config name lineage) :
    lineage.mergedProps =
      lineage.propsById.filter (·.spec.isId) ++ lineage.propsById.filter (!·.spec.isId) := by
  rw [h.propsById_eq]
  induction lineage generalizing name with
  | nil => rfl
  | cons blueprint above ih =>
    cases above with
    | nil => exact h.filter_isId_ownProps.symm
    | cons parent rest =>
      obtain ⟨ancestor, habove⟩ := h.above.resolve_left (by simp)
      have hlevel : Lineage.byLevel (blueprint :: parent :: rest) =
          Lineage.byLevel (parent :: rest) ++ blueprint.ownProps := rfl
      rw [Lineage.mergedProps_cons_cons, ih habove, hlevel]
      generalize Lineage.byLevel (parent :: rest) = inherited
      simp [List.filter_append, List.filter_filter]

end Source.HasLineage

end Metamodel
