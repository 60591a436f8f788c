import Mathlib.Data.List.Infix
import Mathlib.Data.List.Nodup
import Metamodel.Graph.View
import Metamodel.Proofs.Blueprint.Checks

/-!
# Lineages

What a registered type is depends on its declaration and on those of its ancestors, and on
nothing else. A lineage is the list of their blueprints, nearest first. It has a merged view,
numbers and special properties of its own, without any key, and `Lineage.view` is the whole type
in names. `Source.HasLineage` relates a declared name to the lineage that its declarations give;
there is at most one (`HasLineage.unique`).
-/

namespace Metamodel

/-- A property of a lineage: who declares it, and what the declaration says about it. -/
structure LineageProp where
  owner : String
  spec : PropSpec
  deriving DecidableEq

/-- The property by its owner and its name. -/
def LineageProp.label (prop : LineageProp) : PropLabel :=
  ⟨prop.owner, prop.spec.name⟩

/-- The properties that a blueprint declares itself. -/
def Blueprint.ownProps (blueprint : Blueprint) : List LineageProp :=
  blueprint.props.map (⟨blueprint.qualifiedName, ·⟩)

/-- The blueprints of a type and of its ancestors, nearest first. -/
abbrev Lineage := List Blueprint

namespace Lineage

/-- The merged view of a lineage: identities first, and of either kind the inherited ones first. -/
def mergedProps : Lineage → List LineageProp
  | [] => []
  | [blueprint] => blueprint.ownProps
  | blueprint :: parent :: above =>
    let inherited := mergedProps (parent :: above)
    inherited.filter (·.spec.isId) ++ blueprint.ownProps.filter (·.spec.isId) ++
      inherited.filter (!·.spec.isId) ++ blueprint.ownProps.filter (!·.spec.isId)

/-- The property in a special role. -/
def holder (special : Special) : Lineage → Option PropLabel
  | [] => none
  | blueprint :: above =>
    match blueprint.specials.get special with
    | .empty => none
    | .inherited => holder special above
    | .own index => blueprint.ownProps[index]?.map LineageProp.label

/-- The largest number of a property, zero if there is none. -/
def maxPropId (lineage : Lineage) : Nat :=
  (lineage.mergedProps.map (·.spec.id)).max?.getD 0

/-- What the type of a lineage lends to its descendants. -/
def inherited? : Lineage → Option Inherited
  | [] => none
  | blueprint :: above => some {
      name := blueprint.qualifiedName
      category := blueprint.category
      scope := blueprint.scope
      propNames := (mergedProps (blueprint :: above)).map (·.spec.name)
      maxPropId := maxPropId (blueprint :: above)
      specials := .tabulate fun special => holder special (blueprint :: above) }

/-- The merged view in the order of numbers. -/
def propsById (lineage : Lineage) : List LineageProp :=
  lineage.mergedProps.mergeSort fun a b => a.spec.id ≤ b.spec.id

/-- The type of a lineage in names. -/
def view (blueprint : Blueprint) (above : Lineage) : TypeView where
  qualifiedName := blueprint.qualifiedName
  package := blueprint.package
  simpleName := blueprint.simpleName
  category := blueprint.category
  scope := blueprint.scope
  superType := above.head?.map (·.qualifiedName)
  declared := blueprint.ownProps.map (·.label)
  specials := .tabulate fun special => holder special (blueprint :: above)
  names := blueprint.names
  messages := blueprint.messages
  props := (mergedProps (blueprint :: above)).map (·.label)
  byId := (propsById (blueprint :: above)).map fun prop => (prop.spec.id, prop.label)
  maxPropId := maxPropId (blueprint :: above)

/-- A lineage lends the names of its properties. -/
theorem propNames_inherited? (lineage : Lineage) :
    (lineage.inherited?.map (·.propNames)).getD [] = lineage.mergedProps.map (·.spec.name) := by
  cases lineage <;> rfl

/-- A lineage lends its largest number. -/
theorem maxPropId_inherited? (lineage : Lineage) :
    (lineage.inherited?.map (·.maxPropId)).getD 0 = lineage.maxPropId := by
  cases lineage <;> rfl

/-- A lineage lends its special properties. -/
theorem specials_inherited? (lineage : Lineage) (special : Special) :
    ((lineage.inherited?.map (·.specials)).getD (Specials.tabulate fun _ => none)).get special =
      lineage.holder special := by
  cases lineage with
  | nil => simp [inherited?, holder]
  | cons blueprint above => simp [inherited?]

/-- Below others a blueprint sorts what they have and what it has itself: identities first. -/
theorem mergedProps_cons_cons (blueprint parent : Blueprint) (above : Lineage) :
    mergedProps (blueprint :: parent :: above) =
      (mergedProps (parent :: above) ++ blueprint.ownProps).filter (·.spec.isId) ++
        (mergedProps (parent :: above) ++ blueprint.ownProps).filter (!·.spec.isId) := by
  rw [mergedProps]
  simp only [List.filter_append, List.append_assoc]

/-- The merged view of a lineage has the own properties and those above, in some order. -/
theorem mergedProps_perm (blueprint : Blueprint) (above : Lineage) :
    (mergedProps (blueprint :: above)).Perm (mergedProps above ++ blueprint.ownProps) := by
  cases above with
  | nil => simp [mergedProps]
  | cons parent above =>
    rw [mergedProps_cons_cons]
    exact List.filter_append_perm _ _

end Lineage

/-- The lineage of a declared name: the blueprints of its declaration and of those of its
ancestors, each legal under what the ones above it lend. -/
inductive Source.HasLineage (source : Source) (config : Config) : String → Lineage → Prop where
  | root {name : String} {declaration : Declaration} {header : Header} {blueprint : Blueprint} :
    source.declaration? name = some declaration →
    Header.ofDeclaration source declaration = .ok header →
    header.ancestor = none →
    Blueprint.ofDeclaration source config declaration header none = .ok blueprint →
    HasLineage source config name [blueprint]
  | child {name ancestor : String} {declaration : Declaration} {header : Header}
      {blueprint : Blueprint} {above : Lineage} :
    source.declaration? name = some declaration →
    Header.ofDeclaration source declaration = .ok header →
    header.ancestor = some ancestor →
    HasLineage source config ancestor above →
    Blueprint.ofDeclaration source config declaration header above.inherited? = .ok blueprint →
    HasLineage source config name (blueprint :: above)

variable {source : Source} {config : Config}

/-- A declaration is found under its own qualified name. -/
theorem Source.qualifiedName_of_declaration? {name : String} {declaration : Declaration}
    (h : source.declaration? name = some declaration) : declaration.qualifiedName = name := by
  simpa using List.find?_some h

/-- The blueprint of a declared name has that name. -/
theorem Blueprint.qualifiedName_of_declared {name : String} {declaration : Declaration}
    {header : Header} {inherited : Option Inherited} {blueprint : Blueprint}
    (hdeclared : source.declaration? name = some declaration)
    (h : Blueprint.ofDeclaration source config declaration header inherited = .ok blueprint) :
    blueprint.qualifiedName = name := by
  obtain ⟨-, -, props, -, -, -, rfl⟩ := Blueprint.ofDeclaration_eq_ok_iff.1 h
  exact Source.qualifiedName_of_declaration? hdeclared

namespace Source.HasLineage

/-- A lineage starts with the blueprint of its own name. -/
theorem head {name : String} {lineage : Lineage} (h : source.HasLineage config name lineage) :
    ∃ blueprint above, lineage = blueprint :: above ∧ blueprint.qualifiedName = name := by
  cases h with
  | root hdeclared _ _ hblueprint =>
    exact ⟨_, _, rfl, Blueprint.qualifiedName_of_declared hdeclared hblueprint⟩
  | child hdeclared _ _ _ hblueprint =>
    exact ⟨_, _, rfl, Blueprint.qualifiedName_of_declared hdeclared hblueprint⟩

/-- Only declared names have a lineage. -/
theorem declared {name : String} {lineage : Lineage} (h : source.HasLineage config name lineage) :
    ∃ declaration, source.declaration? name = some declaration := by
  cases h with
  | root hdeclared _ _ _ => exact ⟨_, hdeclared⟩
  | child hdeclared _ _ _ _ => exact ⟨_, hdeclared⟩

/-- The first blueprint is legal under what the ones above it lend. -/
theorem exists_declaration {name : String} {blueprint : Blueprint} {above : Lineage}
    (h : source.HasLineage config name (blueprint :: above)) :
    ∃ declaration header, source.declaration? name = some declaration ∧
      Header.ofDeclaration source declaration = .ok header ∧
      Blueprint.ofDeclaration source config declaration header above.inherited? =
        .ok blueprint := by
  cases h with
  | root hdeclared hheader _ hblueprint => exact ⟨_, _, hdeclared, hheader, hblueprint⟩
  | child hdeclared hheader _ _ hblueprint => exact ⟨_, _, hdeclared, hheader, hblueprint⟩

/-- A name has at most one lineage. -/
theorem unique {name : String} {lineage other : Lineage}
    (h : source.HasLineage config name lineage) (hother : source.HasLineage config name other) :
    lineage = other := by
  induction h generalizing other with
  | root hdeclared hheader hancestor hblueprint =>
    cases hother with
    | root hdeclared' hheader' hancestor' hblueprint' => simp_all
    | child hdeclared' hheader' hancestor' habove' hblueprint' => simp_all
  | child hdeclared hheader hancestor habove hblueprint ih =>
    cases hother with
    | root hdeclared' hheader' hancestor' hblueprint' => simp_all
    | child hdeclared' hheader' hancestor' habove' hblueprint' =>
      obtain rfl : _ = _ := Option.some.inj (hdeclared.symm.trans hdeclared')
      obtain rfl : _ = _ := Except.ok.inj (hheader.symm.trans hheader')
      obtain rfl : _ = _ := Option.some.inj (hancestor.symm.trans hancestor')
      obtain rfl := ih habove'
      obtain rfl : _ = _ := Except.ok.inj (hblueprint.symm.trans hblueprint')
      rfl

/-- The lineage of an ancestor is what stands above in the lineage of the descendant. -/
theorem suffix {name : String} {lineage : Lineage} (h : source.HasLineage config name lineage)
    {blueprint : Blueprint} {above : Lineage} (hsuffix : blueprint :: above <:+ lineage) :
    source.HasLineage config blueprint.qualifiedName (blueprint :: above) := by
  induction h with
  | root hdeclared hheader hancestor hblueprint =>
    have h := Source.HasLineage.root hdeclared hheader hancestor hblueprint
    obtain ⟨first, rest, heq, hname⟩ := h.head
    rw [List.suffix_cons_iff] at hsuffix
    rcases hsuffix with hsame | hnil
    · cases hsame
      cases heq
      exact hname ▸ h
    · simp at hnil
  | child hdeclared hheader hancestor habove hblueprint ih =>
    have h := Source.HasLineage.child hdeclared hheader hancestor habove hblueprint
    obtain ⟨first, rest, heq, hname⟩ := h.head
    rw [List.suffix_cons_iff] at hsuffix
    rcases hsuffix with hsame | hsuffix
    · cases hsame
      cases heq
      exact hname ▸ h
    · exact ih hsuffix

/-- The names of a lineage are distinct: a type is not its own ancestor. -/
theorem names_nodup {name : String} {lineage : Lineage}
    (h : source.HasLineage config name lineage) :
    (lineage.map (·.qualifiedName)).Nodup := by
  induction h with
  | root hdeclared hheader hancestor hblueprint => simp
  | @child name ancestor declaration header blueprint above hdeclared hheader hancestor habove
      hblueprint ih =>
    refine List.nodup_cons.2 ⟨?_, ih⟩
    intro hmem
    obtain ⟨repeated, hrepeated, hname⟩ := List.mem_map.1 hmem
    obtain ⟨before, after, rfl⟩ := List.append_of_mem hrepeated
    -- the lineage of the repeated name would be a proper suffix of itself
    have hfull := Source.HasLineage.child hdeclared hheader hancestor habove hblueprint
    have hpart := habove.suffix (List.suffix_append before (repeated :: after))
    obtain ⟨_, _, heq, hfirst⟩ := hfull.head
    cases heq
    rw [hname.trans hfirst] at hpart
    have hlength := congrArg List.length (hfull.unique hpart)
    simp only [List.length_cons, List.length_append] at hlength
    omega

/-- What stands above a blueprint is the lineage of its ancestor, or nothing. -/
theorem above {name : String} {blueprint : Blueprint} {above : Lineage}
    (h : source.HasLineage config name (blueprint :: above)) :
    above = [] ∨ ∃ ancestor, source.HasLineage config ancestor above := by
  cases h with
  | root _ _ _ _ => exact .inl rfl
  | child _ _ _ habove _ => exact .inr ⟨_, habove⟩

/-- A property of a blueprint has none of the names from above. -/
theorem name_not_mem_above {name : String} {blueprint : Blueprint} {above : Lineage}
    (h : source.HasLineage config name (blueprint :: above)) {prop : PropSpec}
    (hprop : prop ∈ blueprint.props) :
    prop.name ∉ (Lineage.mergedProps above).map (·.spec.name) := by
  obtain ⟨declaration, header, -, -, hblueprint⟩ := h.exists_declaration
  obtain ⟨-, -, props, -, hoverride, -, rfl⟩ := Blueprint.ofDeclaration_eq_ok_iff.1 hblueprint
  simp only [overrideViolation?, Option.map_eq_none_iff, List.find?_eq_none, decide_eq_true_eq,
    Lineage.propNames_inherited?] at hoverride
  exact hoverride prop hprop

/-- The properties of a lineage have distinct names. -/
theorem propNames_nodup {name : String} {lineage : Lineage}
    (h : source.HasLineage config name lineage) :
    (lineage.mergedProps.map (·.spec.name)).Nodup := by
  induction lineage generalizing name with
  | nil => simp [Lineage.mergedProps]
  | cons blueprint above ih =>
    have hinherited : ((Lineage.mergedProps above).map (·.spec.name)).Nodup := by
      rcases h.above with rfl | ⟨ancestor, habove⟩
      · simp [Lineage.mergedProps]
      · exact ih habove
    obtain ⟨declaration, header, -, -, hblueprint⟩ := h.exists_declaration
    obtain ⟨-, hmembers, props, hprops, -, -, rfl⟩ :=
      Blueprint.ofDeclaration_eq_ok_iff.1 hblueprint
    have hown : (props.map (·.name)).Nodup := by
      rw [Declaration.names_of_propSpecs hprops]
      have hfiltered := (memberViolation?_eq_none_iff.1 hmembers).1.sublist
        ((List.filter_sublist (p := Member.isProperty)).map Member.name)
      exact (declaration.propertyMembers_perm.map _).nodup_iff.2 hfiltered
    refine ((Lineage.mergedProps_perm _ above).map _).nodup_iff.2 ?_
    rw [List.map_append, Blueprint.ownProps, List.map_map]
    refine hinherited.append hown ?_
    intro name hname hmem
    obtain ⟨prop, hprop, rfl⟩ := List.mem_map.1 hmem
    exact h.name_not_mem_above hprop hname

end Source.HasLineage

end Metamodel
