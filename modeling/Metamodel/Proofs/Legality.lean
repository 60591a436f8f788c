import Metamodel.Proofs.Blueprint.Specials
import Metamodel.Proofs.Declaration.Legal
import Metamodel.Proofs.Registration

/-!
# Registration accepts exactly the legal declarations

Declarations are checked against what their ancestors lend, and part of that is a view of the
ancestors' own. `Lineage.Describes` says what of a lineage the checks can see, in terms of its
declarations. It makes each blueprint equivalent to the legality of its declaration
(`exists_blueprint_iff`), and from there a name can be registered exactly when the walk from it
along single immutable interfaces comes to an end and meets legal declarations only
(`resolve_ok_iff_legal`).
-/

namespace Metamodel

/-! ### Properties and members -/

namespace Declaration

variable {source : Source} {config : Config} {declaration : Declaration} {header : Header}
  {inherited : Option Inherited} {last : Nat} {props : List PropSpec}

/-- A member tagged for a role becomes a property: it has no body. -/
theorem LegalMembers.isProperty_of_plays (h : declaration.LegalMembers source) {member : Member}
    (hmember : member ∈ declaration.members) {special : Special}
    (hplays : member.plays special = true) : member.isProperty = true := by
  cases hasBody : member.hasBody with
  | false => simp [Member.isProperty, hasBody]
  | true =>
    obtain ⟨tag, htag, hkind⟩ := List.any_eq_true.1 hplays
    rw [h.bodyTags member hmember hasBody tag htag] at hkind
    cases special <;> simp [Special.tag] at hkind

/-- As many properties as members are tagged for a role. -/
theorem LegalMembers.length_own (h : declaration.LegalMembers source)
    (hprops : declaration.propSpecs source last = .ok props) (special : Special) :
    ((Blueprint.specialContext declaration header inherited props).own special).length =
      (declaration.members.filter (·.plays special)).length := by
  have hmembers : (declaration.propertyMembers.filter (·.plays special)).Perm
      (declaration.members.filter (·.plays special)) := by
    have hfilter : declaration.members.filter (·.plays special) =
        (declaration.members.filter Member.isProperty).filter (·.plays special) := by
      rw [List.filter_filter]
      refine List.filter_congr fun member hmember => ?_
      cases hplays : member.plays special with
      | false => rfl
      | true => rw [h.isProperty_of_plays hmember hplays]; rfl
    rw [hfilter]
    exact declaration.propertyMembers_perm.filter _
  have htags : props.map (·.tags) = declaration.propertyMembers.map (·.tags) :=
    map_propSpecs hprops fun _ _ => rfl
  calc
    _ = ((props.map (·.tags)).filter (·.has special.tag)).length := by
      rw [List.filter_map, List.length_map]
      rfl
    _ = (declaration.propertyMembers.filter (·.plays special)).length := by
      rw [htags, List.filter_map, List.length_map]
      rfl
    _ = (declaration.members.filter (·.plays special)).length := hmembers.length_eq

/-- No property is tagged for a role exactly when no member is. -/
theorem LegalMembers.own_eq_nil_iff (h : declaration.LegalMembers source)
    (hprops : declaration.propSpecs source last = .ok props) (special : Special) :
    (Blueprint.specialContext declaration header inherited props).own special = [] ↔
      ∀ member ∈ declaration.members, member.plays special = false := by
  rw [← List.length_eq_zero_iff, h.length_own hprops, List.length_eq_zero_iff,
    List.filter_eq_nil_iff]
  simp

/-- No property tagged for a role is an association exactly when the types of the members tagged
for it name no entity and no mapped superclass. -/
theorem LegalMembers.own_isAssociation_iff (h : declaration.LegalMembers source)
    (hprops : declaration.propSpecs source last = .ok props) (special : Special) :
    (∀ prop ∈ (Blueprint.specialContext declaration header inherited props).own special,
      prop.kind.isAssociation = false) ↔
      ∀ member ∈ declaration.members, member.plays special = true → member.IsValued source := by
  have hkind {member : Member} (hmember : member ∈ declaration.members) :=
    Member.isAssociation_kind_eq_false_iff (h.computed member hmember)
  constructor
  · intro hown member hmember hplays
    obtain ⟨id, hprop⟩ := exists_spec_of_propSpecs hprops
      (mem_propertyMembers.2 ⟨hmember, h.isProperty_of_plays hmember hplays⟩)
    exact (hkind hmember).1 (hown _ (List.mem_filter.2 ⟨hprop, hplays⟩))
  · intro hvalued prop hprop
    obtain ⟨hprop, hplays⟩ := List.mem_filter.1 hprop
    obtain ⟨member, hmember, id, rfl⟩ := exists_member_of_propSpecs hprops hprop
    have hmember := (mem_propertyMembers.1 hmember).1
    exact (hkind hmember).2 (hvalued member hmember hplays)

/-- No property is tagged for a role that the category does not have exactly when no member of an
embeddable declaration is tagged for any. -/
theorem LegalMembers.allowed_iff (h : declaration.LegalMembers source)
    (hheader : Header.ofDeclaration source declaration = .ok header)
    (hprops : declaration.propSpecs source last = .ok props) :
    (∀ special, header.category.allowsSpecials = false →
        (Blueprint.specialContext declaration header inherited props).own special = []) ↔
      (.embeddable ∈ declaration.tags →
        ∀ member ∈ declaration.members, ∀ special, member.plays special = false) := by
  obtain ⟨tag, htags, hcategory, -, -⟩ := Header.eq_of_ok hheader
  have hembeddable : header.category.allowsSpecials = false ↔ .embeddable ∈ declaration.tags := by
    rw [← hcategory, TypeTag.allowsSpecials_eq_false_iff, htags, List.mem_singleton, eq_comm]
  simp only [hembeddable, h.own_eq_nil_iff hprops]
  constructor
  · intro hallowed htag member hmember special
    exact hallowed special htag member hmember
  · intro hallowed special htag member hmember
    exact hallowed htag member hmember special

end Declaration

/-! ### What a lineage shows of its declarations -/

namespace Lineage

/-- What the checks can see of a lineage is what its declarations say: categories and scopes, the
names of properties, and which special roles are filled, none of them twice. -/
structure Describes (lineage : Lineage) (walk : List Declaration) : Prop where
  tags : List.Forall₂ (fun blueprint declaration => ∃ tag, declaration.tags = [tag] ∧
    tag.category = blueprint.category ∧ tag.scope = blueprint.scope) lineage walk
  propNames : ∀ name, name ∈ (Lineage.mergedProps lineage).map (·.spec.name) ↔
    ∃ declaration ∈ walk, ∃ member ∈ declaration.members,
      member.isProperty = true ∧ member.name = name
  holder : ∀ special, (Lineage.holder special lineage).isSome = true ↔
    ∃ declaration ∈ walk, ∃ member ∈ declaration.members, member.plays special = true
  specials : ∀ special, ((walk.flatMap (·.members)).filter (·.plays special)).length ≤ 1

variable {source : Source} {config : Config} {declaration : Declaration} {header : Header}
  {lineage : Lineage} {walk : List Declaration}

theorem Describes.nil : Describes [] [] :=
  ⟨.nil, by simp [Lineage.mergedProps], by simp [Lineage.holder], by simp⟩

/-- The ancestor has no fault exactly when the tag of the declaration extends its tag. -/
theorem Describes.ancestorFault?_eq_none_iff (h : Describes lineage walk)
    (hheader : Header.ofDeclaration source declaration = .ok header) :
    (Lineage.inherited? lineage).bind header.ancestorFault? = none ↔
      ∀ parent ∈ walk.head?, ∀ tag ∈ declaration.tags, ∀ other ∈ parent.tags,
        tag.Extends other := by
  obtain ⟨tag, htags, hcategory, hscope, -⟩ := Header.eq_of_ok hheader
  have htagged := h.tags
  cases htagged with
  | nil => simp [Lineage.inherited?]
  | @cons blueprint parent above rest hparent _ =>
    obtain ⟨other, hothers, hcategory', hscope'⟩ := hparent
    have hextends : header.category.accepts blueprint.category = true ∧
        blueprint.scope.admits header.scope = true ↔ tag.Extends other := by
      rw [TypeTag.extends_iff, hcategory, hcategory', hscope, hscope']
    simp only [Lineage.inherited?, Option.bind_some, Header.ancestorFault?, List.head?_cons,
      Option.mem_some_iff, forall_eq', htags, hothers, List.mem_singleton, forall_eq, ← hextends]
    cases header.category.accepts blueprint.category <;>
      cases blueprint.scope.admits header.scope <;> simp

/-- No property overrides an inherited one exactly when no member has the name of one above. -/
theorem Describes.overrideViolation?_eq_none_iff (h : Describes lineage walk) {last : Nat}
    {props : List PropSpec} (hprops : declaration.propSpecs source last = .ok props) :
    overrideViolation? declaration.qualifiedName
        (((Lineage.inherited? lineage).map (·.propNames)).getD []) props = none ↔
      ∀ member ∈ declaration.members, member.isProperty = true →
        ∀ upper ∈ walk, ∀ other ∈ upper.members, other.isProperty = true →
          other.name ≠ member.name := by
  rw [propNames_inherited?, overrideViolation?, Option.map_eq_none_iff, List.find?_eq_none]
  simp only [decide_eq_true_eq, h.propNames]
  constructor
  · intro hnone member hmember hproperty upper hupper other hother hproperty' heq
    obtain ⟨prop, hprop, hname⟩ :=
      List.mem_map.1
        ((Declaration.mem_names_of_propSpecs hprops).2 ⟨member, hmember, hproperty, rfl⟩)
    exact hnone prop hprop ⟨upper, hupper, other, hother, hproperty', heq.trans hname.symm⟩
  · rintro hdistinct prop hprop ⟨upper, hupper, other, hother, hproperty', heq⟩
    obtain ⟨member, hmember, hproperty, hname⟩ :=
      (Declaration.mem_names_of_propSpecs hprops).1 (List.mem_map_of_mem hprop)
    exact hdistinct member hmember hproperty upper hupper other hother hproperty'
      (heq.trans hname.symm)

/-- What is needed to fill the special roles of a declaration below a lineage. -/
abbrev context (lineage : Lineage) (declaration : Declaration) (header : Header)
    (props : List PropSpec) : SpecialContext :=
  Blueprint.specialContext declaration header (Lineage.inherited? lineage) props

/-- A role is filled above exactly when a member above is tagged for it. -/
theorem Describes.inherited_iff (h : Describes lineage walk) {props : List PropSpec}
    (special : Special) :
    ((lineage.context declaration header props).inherited.get special).isSome = true ↔
      ∃ upper ∈ walk, ∃ member ∈ upper.members, member.plays special = true := by
  rw [← h.holder, ← specials_inherited?]
  rfl

/-- A role is neither taken nor filled twice exactly when at most one member is tagged for it, of
the declaration and of those above together. -/
theorem Describes.single_iff (h : Describes lineage walk)
    (hmembers : declaration.LegalMembers source) {last : Nat} {props : List PropSpec}
    (hprops : declaration.propSpecs source last = .ok props) (special : Special) :
    ((((lineage.context declaration header props).inherited.get special).isSome = true →
        (lineage.context declaration header props).own special = []) ∧
      ((lineage.context declaration header props).own special).length ≤ 1) ↔
      (((declaration :: walk).flatMap (·.members)).filter (·.plays special)).length ≤ 1 := by
  have habove : ((lineage.context declaration header props).inherited.get special).isSome = true ↔
      0 < ((walk.flatMap (·.members)).filter (·.plays special)).length := by
    rw [h.inherited_iff, List.length_pos_iff_exists_mem]
    simp only [List.mem_filter, List.mem_flatMap]
    constructor
    · rintro ⟨upper, hupper, member, hmember, hplays⟩
      exact ⟨member, ⟨upper, hupper, hmember⟩, hplays⟩
    · rintro ⟨member, ⟨upper, hupper, hmember⟩, hplays⟩
      exact ⟨upper, hupper, member, hmember, hplays⟩
  -- above there is at most one already, so all that remains is arithmetic
  have hupper := h.specials special
  rw [habove, ← List.length_eq_zero_iff, hmembers.length_own hprops, List.flatMap_cons,
    List.filter_append, List.length_append]
  omega

/-- An entity has its identity exactly when a member of it or of a declaration above is tagged as
one. -/
theorem Describes.identity_iff (h : Describes lineage walk)
    (hheader : Header.ofDeclaration source declaration = .ok header)
    (hmembers : declaration.LegalMembers source) {last : Nat} {props : List PropSpec}
    (hprops : declaration.propSpecs source last = .ok props) :
    (header.category = .entity → config.requireEntityId = true →
        ((lineage.context declaration header props).inherited.get .identity).isSome = true ∨
          (lineage.context declaration header props).own .identity ≠ []) ↔
      (config.requireEntityId = true → (∃ scope, .entity scope ∈ declaration.tags) →
        ∃ upper ∈ declaration :: walk, ∃ member ∈ upper.members,
          member.tags.has .id = true) := by
  obtain ⟨tag, htags, hcategory, -, -⟩ := Header.eq_of_ok hheader
  have hentity : header.category = .entity ↔ ∃ scope, .entity scope ∈ declaration.tags := by
    rw [← hcategory, TypeTag.category_eq_entity_iff, htags]
    simp only [List.mem_singleton, eq_comm]
  have hidentity :
      (((lineage.context declaration header props).inherited.get .identity).isSome = true ∨
        (lineage.context declaration header props).own .identity ≠ []) ↔
      ∃ upper ∈ declaration :: walk, ∃ member ∈ upper.members, member.tags.has .id = true := by
    rw [h.inherited_iff, ne_eq, hmembers.own_eq_nil_iff hprops]
    simp only [List.mem_cons, exists_eq_or_imp, not_forall, Bool.not_eq_false, exists_prop]
    exact or_comm
  rw [hentity, hidentity]
  exact ⟨fun h hrequire hscope => h hscope hrequire, fun h hscope hrequire => h hrequire hscope⟩

/-- A declaration with legal members passes the checks that look above it exactly when it fits
the declarations there. -/
theorem Describes.legalUnder_iff (h : Describes lineage walk)
    (hheader : Header.ofDeclaration source declaration = .ok header)
    (hmembers : declaration.LegalMembers source) {last : Nat} {props : List PropSpec}
    (hprops : declaration.propSpecs source last = .ok props) :
    ((Lineage.inherited? lineage).bind header.ancestorFault? = none ∧
      overrideViolation? declaration.qualifiedName
        (((Lineage.inherited? lineage).map (·.propNames)).getD []) props = none ∧
      (lineage.context declaration header props).violation? config = none) ↔
      declaration.LegalUnder source config walk := by
  rw [h.ancestorFault?_eq_none_iff hheader, h.overrideViolation?_eq_none_iff hprops,
    SpecialContext.violation?_eq_none_iff]
  constructor
  · rintro ⟨hextends, hoverrides, htaken, hallowed, hrepeated, hassociation, hidentity⟩
    exact {
      extends_parent := hextends
      overrides := hoverrides
      specials special := (h.single_iff hmembers hprops special).1
        ⟨htaken special, hrepeated special⟩
      allowed := (hmembers.allowed_iff hheader hprops).1 hallowed
      associations member hmember special :=
        (hmembers.own_isAssociation_iff hprops special).1 (hassociation special) member hmember
      identity := (h.identity_iff hheader hmembers hprops).1 hidentity }
  · intro hunder
    refine ⟨hunder.extends_parent, hunder.overrides, ?_, ?_, ?_, ?_, ?_⟩
    · intro special
      exact ((h.single_iff hmembers hprops special).2 (hunder.specials special)).1
    · exact (hmembers.allowed_iff hheader hprops).2 hunder.allowed
    · intro special
      exact ((h.single_iff hmembers hprops special).2 (hunder.specials special)).2
    · intro special
      exact (hmembers.own_isAssociation_iff hprops special).2
        fun member hmember => hunder.associations member hmember special
    · exact (h.identity_iff hheader hmembers hprops).2 hunder.identity

/-- A declaration has a blueprint exactly when it is legal under the declarations above it. -/
theorem Describes.exists_blueprint_iff (h : Describes lineage walk) :
    (∃ header blueprint, Header.ofDeclaration source declaration = .ok header ∧
      Blueprint.ofDeclaration source config declaration header (Lineage.inherited? lineage) =
        .ok blueprint) ↔ declaration.Legal source config walk := by
  constructor
  · rintro ⟨header, blueprint, hheader, hblueprint⟩
    obtain ⟨hancestor, hviolation, props, hprops, hoverride, hspecials, -⟩ :=
      Blueprint.ofDeclaration_eq_ok_iff.1 hblueprint
    have hmembers := Declaration.legalMembers_iff.1 ⟨hviolation, props, hprops⟩
    exact ⟨Header.exists_ok_iff.1 ⟨header, hheader⟩, hmembers,
      (h.legalUnder_iff hheader hmembers hprops).1 ⟨hancestor, hoverride, hspecials⟩⟩
  · rintro ⟨halone, hmembers, hunder⟩
    obtain ⟨header, hheader⟩ := Header.exists_ok_iff.2 halone
    obtain ⟨hviolation, props, hprops⟩ := Declaration.legalMembers_iff.2 hmembers
    obtain ⟨hancestor, hoverride, hspecials⟩ :=
      (h.legalUnder_iff hheader hmembers hprops).2 hunder
    exact ⟨header, _, hheader, Blueprint.ofDeclaration_eq_ok_iff.2
      ⟨hancestor, hviolation, props, hprops, hoverride, hspecials, rfl⟩⟩

/-- The names of properties that a blueprint adds are those of the members that become
properties. -/
theorem Describes.propNames_cons (h : Describes lineage walk) {blueprint : Blueprint}
    (hblueprint : Blueprint.ofDeclaration source config declaration header
      (Lineage.inherited? lineage) = .ok blueprint) (name : String) :
    name ∈ (Lineage.mergedProps (blueprint :: lineage)).map (·.spec.name) ↔
      ∃ upper ∈ declaration :: walk, ∃ member ∈ upper.members,
        member.isProperty = true ∧ member.name = name := by
  obtain ⟨-, -, props, hprops, -, -, rfl⟩ := Blueprint.ofDeclaration_eq_ok_iff.1 hblueprint
  rw [((Lineage.mergedProps_perm _ lineage).map _).mem_iff, List.map_append, List.mem_append,
    h.propNames, Blueprint.ownProps, List.map_map]
  simp only [List.mem_cons, exists_eq_or_imp]
  rw [or_comm]
  exact or_congr_left (Declaration.mem_names_of_propSpecs hprops)

/-- A blueprint fills a special role if its ancestor does or a member is tagged for it. -/
theorem Describes.holder_cons (h : Describes lineage walk) {blueprint : Blueprint}
    (hblueprint : Blueprint.ofDeclaration source config declaration header
      (Lineage.inherited? lineage) = .ok blueprint) (special : Special) :
    (Lineage.holder special (blueprint :: lineage)).isSome = true ↔
      ∃ upper ∈ declaration :: walk, ∃ member ∈ upper.members, member.plays special = true := by
  have hfilled := Blueprint.slotsFilled_of_ofDeclaration hblueprint special
  obtain ⟨-, hviolation, props, hprops, -, -, rfl⟩ := Blueprint.ofDeclaration_eq_ok_iff.1 hblueprint
  have hmembers := Declaration.legalMembers_iff.1 ⟨hviolation, props, hprops⟩
  let context := lineage.context declaration header props
  have hinherited : context.inherited.get special = Lineage.holder special lineage :=
    specials_inherited? lineage special
  have hown : context.own special ≠ [] ↔
      ∃ member ∈ declaration.members, member.plays special = true := by
    rw [ne_eq, hmembers.own_eq_nil_iff hprops]
    simp
  have hslots : (Blueprint.withProps config declaration header (Lineage.inherited? lineage)
      props).specials.get special = context.slot special := Specials.get_tabulate ..
  simp only [List.mem_cons, exists_eq_or_imp, ← h.holder, ← hown]
  rw [Lineage.holder, hslots]
  rw [hslots] at hfilled
  -- the slot says where the property in the role comes from
  cases hslot : context.slot special with
  | empty =>
    obtain ⟨hnone, hnil⟩ := SpecialContext.slot_eq_empty_iff.1 hslot
    rw [hinherited] at hnone
    simp [hnone, hnil]
  | inherited =>
    have hsome := SpecialContext.slot_eq_inherited_iff.1 hslot
    rw [hinherited] at hsome
    simp [hsome]
  | own index =>
    have hlt : index < props.length := hfilled index hslot
    have hne := SpecialContext.own_ne_nil_of_slot hslot
    simp [hne, Blueprint.ownProps, Blueprint.withProps, hlt]

/-- A lineage that continues with a legal declaration shows what that declaration says. -/
theorem Describes.cons (h : Describes lineage walk)
    (hheader : Header.ofDeclaration source declaration = .ok header) {blueprint : Blueprint}
    (hblueprint : Blueprint.ofDeclaration source config declaration header
      (Lineage.inherited? lineage) = .ok blueprint) :
    Describes (blueprint :: lineage) (declaration :: walk) where
  tags := by
    refine .cons ?_ h.tags
    obtain ⟨tag, htags, hcategory, hscope, -⟩ := Header.eq_of_ok hheader
    obtain ⟨-, -, props, -, -, -, rfl⟩ := Blueprint.ofDeclaration_eq_ok_iff.1 hblueprint
    exact ⟨tag, htags, hcategory, hscope⟩
  propNames := h.propNames_cons hblueprint
  holder := h.holder_cons hblueprint
  specials := (h.exists_blueprint_iff.1 ⟨header, blueprint, hheader, hblueprint⟩).under.specials

end Lineage

/-! ### Walks -/

namespace Source

variable {source : Source} {config : Config}

/-- The declarations from a name on, each followed by the single immutable interface that it
lists, up to one that lists none or several. -/
inductive Walk (source : Source) : String → List Declaration → Prop where
  | top {name : String} {declaration : Declaration} :
    source.declaration? name = some declaration →
    (∀ ancestor, declaration.interfaces.filter source.isImmutable ≠ [ancestor]) →
    Walk source name [declaration]
  | up {name ancestor : String} {declaration : Declaration} {above : List Declaration} :
    source.declaration? name = some declaration →
    declaration.interfaces.filter source.isImmutable = [ancestor] →
    Walk source ancestor above →
    Walk source name (declaration :: above)

/-- Every declaration of a list is legal under those after it. -/
def AllLegal (source : Source) (config : Config) (walk : List Declaration) : Prop :=
  ∀ declaration above, declaration :: above <:+ walk → declaration.Legal source config above

theorem allLegal_nil : source.AllLegal config [] := by
  intro declaration above hsuffix
  simp at hsuffix

theorem allLegal_cons {declaration : Declaration} {above : List Declaration} :
    source.AllLegal config (declaration :: above) ↔
      declaration.Legal source config above ∧ source.AllLegal config above := by
  constructor
  · intro h
    exact ⟨h declaration above List.suffix_rfl,
      fun other upper hsuffix => h other upper (hsuffix.trans (List.suffix_cons _ _))⟩
  · rintro ⟨hlegal, habove⟩ other upper hsuffix
    rcases List.suffix_cons_iff.1 hsuffix with heq | hsuffix
    · cases heq
      exact hlegal
    · exact habove other upper hsuffix

/-- A legal header has no ancestor exactly when no single immutable interface is listed. -/
theorem ancestor_eq_some_iff {declaration : Declaration} {header : Header}
    (hheader : Header.ofDeclaration source declaration = .ok header) {ancestor : String} :
    header.ancestor = some ancestor ↔
      declaration.interfaces.filter source.isImmutable = [ancestor] := by
  obtain ⟨hlength, hancestor⟩ := Declaration.ancestor?_eq_ok_iff.1
    (Header.ofDeclaration_eq_ok_iff.1 hheader).2.2.2.2
  rw [hancestor]
  cases hinterfaces : declaration.interfaces.filter source.isImmutable with
  | nil => simp
  | cons first rest =>
    rw [hinterfaces, List.length_cons] at hlength
    obtain rfl : rest = [] := List.length_eq_zero_iff.1 (by omega)
    simp

/-- A lineage comes from a walk through legal declarations, and shows what they say. -/
theorem HasLineage.exists_walk {name : String} {lineage : Lineage}
    (h : source.HasLineage config name lineage) :
    ∃ walk, source.Walk name walk ∧ source.AllLegal config walk ∧ lineage.Describes walk := by
  induction h with
  | @root name declaration header blueprint hdeclared hheader hancestor hblueprint =>
    have hblueprint' : Blueprint.ofDeclaration source config declaration header
        (Lineage.inherited? []) = .ok blueprint := hblueprint
    refine ⟨[declaration], .top hdeclared ?_, ?_, .cons .nil hheader hblueprint'⟩
    · intro ancestor hsingle
      rw [(ancestor_eq_some_iff hheader).2 hsingle] at hancestor
      cases hancestor
    · refine allLegal_cons.2 ⟨?_, allLegal_nil⟩
      exact Lineage.Describes.nil.exists_blueprint_iff.1 ⟨header, blueprint, hheader, hblueprint'⟩
  | @child name ancestor declaration header blueprint above hdeclared hheader hancestor _
      hblueprint ih =>
    obtain ⟨walk, hwalk, hlegal, hdescribes⟩ := ih
    refine ⟨declaration :: walk, .up hdeclared ((ancestor_eq_some_iff hheader).1 hancestor) hwalk,
      allLegal_cons.2 ⟨?_, hlegal⟩, hdescribes.cons hheader hblueprint⟩
    exact hdescribes.exists_blueprint_iff.1 ⟨header, blueprint, hheader, hblueprint⟩

/-- A walk through legal declarations gives a lineage, which shows what they say. -/
theorem Walk.exists_lineage {name : String} {walk : List Declaration}
    (h : source.Walk name walk) (hlegal : source.AllLegal config walk) :
    ∃ lineage, source.HasLineage config name lineage ∧ lineage.Describes walk := by
  induction h with
  | @top name declaration hdeclared hnone =>
    obtain ⟨header, blueprint, hheader, hblueprint⟩ :=
      Lineage.Describes.nil.exists_blueprint_iff.2 (allLegal_cons.1 hlegal).1
    refine ⟨[blueprint], .root hdeclared hheader ?_ hblueprint, .cons .nil hheader hblueprint⟩
    cases hancestor : header.ancestor with
    | none => rfl
    | some ancestor => exact absurd ((ancestor_eq_some_iff hheader).1 hancestor) (hnone ancestor)
  | @up name ancestor declaration above hdeclared hsingle _ ih =>
    obtain ⟨hfirst, habove⟩ := allLegal_cons.1 hlegal
    obtain ⟨lineage, hlineage, hdescribes⟩ := ih habove
    obtain ⟨header, blueprint, hheader, hblueprint⟩ := hdescribes.exists_blueprint_iff.2 hfirst
    exact ⟨blueprint :: lineage, .child hdeclared hheader
      ((ancestor_eq_some_iff hheader).2 hsingle) hlineage hblueprint,
      hdescribes.cons hheader hblueprint⟩

end Source

/-- Registration of a name in an empty registry succeeds exactly when the walk from the name
comes to an end and every declaration on it is legal under those above it. -/
theorem Registry.resolve_ok_iff_legal (source : Source) (config : Config) (name : String) :
    (∃ key, (Registry.resolve source config name {}).result = .ok key) ↔
      ∃ walk, source.Walk name walk ∧ source.AllLegal config walk := by
  rw [resolve_ok_iff .empty rfl name]
  constructor
  · rintro ⟨lineage, hlineage⟩
    obtain ⟨walk, hwalk, hlegal, -⟩ := hlineage.exists_walk
    exact ⟨walk, hwalk, hlegal⟩
  · rintro ⟨walk, hwalk, hlegal⟩
    obtain ⟨lineage, hlineage, -⟩ := hwalk.exists_lineage hlegal
    exact ⟨lineage, hlineage⟩

end Metamodel
