import Metamodel.Proofs.Declaration.Legal
import Metamodel.Proofs.Dependencies
import Metamodel.Proofs.Records

/-!
# Kinds and what they are settled to

The kind of a property is decided when its type is registered, from the tags of its member and the
tags of the declaration that its type names, which may be registered much later or never. What the
property links to is decided when it is settled, from the category of the type registered under
that name. `Reachable.kinds` says that the two decisions fit each other, in whatever order calls
register and step. Read `PropertyKind.Coherent` and `Graph.Suits` first.
-/

namespace Metamodel

/-- A kind carries what it needs and nothing else: an expression has paths, distinct ones without
blank segments, a database expression has a text, and no other kind has either. -/
structure PropertyKind.Coherent (kind : PropertyKind) : Prop where
  expression : kind.isExpression = true →
    kind.sql? = none ∧ kind.paths ≠ [] ∧ kind.paths.Nodup ∧
      ∀ path ∈ kind.paths, ∀ segment ∈ Text.splitDots path, Text.isBlank segment = false
  sql : ∀ text, kind = .sql text → text ≠ "" ∧ kind.sql? = some text ∧ kind.paths = []
  plain : kind.isComputed = false → kind.sql? = none ∧ kind.paths = []

namespace Graph

/-- A target is the type of some category that is registered under the name of a property's
type. -/
def LinksTo (graph : Graph) (prop : Property) (target : Option TypeKey) (category : Category) :
    Prop :=
  ∃ key type, target = some key ∧ graph.type? key = some type ∧
    type.qualifiedName = prop.type.innermost ∧ type.category = category

/-- A settlement is one that the kind of the property asks for. -/
structure Suits (graph : Graph) (source : Source) (prop : Property) (settlement : Settlement) :
    Prop where
  association : prop.kind = .association → graph.LinksTo prop settlement.target .entity
  /-- A plain property has a target exactly where its type names a declaration. -/
  declared : prop.kind = .scalar → (source.declaration? prop.type.innermost).isSome = true →
    graph.LinksTo prop settlement.target .embeddable
  undeclared : prop.kind = .scalar → source.declaration? prop.type.innermost = none →
    settlement.target = none
  computed : prop.kind.isComputed = true → settlement.target = none
  /-- The dependencies of an expression are those of its paths, one for each in their order. -/
  expression : prop.kind.isExpression = true →
    settlement.dependencies.map (·.raw) = prop.kind.paths ∧
      (settlement.dependencies.map (·.segments)).Nodup
  others : prop.kind.isExpression = false → settlement.dependencies = []

end Graph

/-! ### What registration decides -/

/-- The kind of a member whose formula fits is coherent. -/
theorem Member.coherent_kind {source : Source} {member : Member}
    (hfits : member.formulaFault? = none) : (member.kind source).Coherent := by
  have hformula := Member.formulaFault?_eq_none_iff.1 hfits
  rw [Member.kind]
  cases hfound : member.tags.formula? with
  | none =>
    dsimp only
    split
    · exact ⟨by simp [PropertyKind.isExpression], by simp, fun _ => ⟨rfl, rfl⟩⟩
    · exact ⟨by simp [PropertyKind.isExpression], by simp, fun _ => ⟨rfl, rfl⟩⟩
  | some formula =>
    have hfit := hformula formula hfound
    cases hbody : member.hasBody with
    | true =>
      simp only [hbody, ↓reduceIte] at hfit ⊢
      exact ⟨fun _ => ⟨rfl, hfit.2⟩, by simp,
        by simp [PropertyKind.isComputed, PropertyKind.tag, KindTag.isComputed]⟩
    | false =>
      simp only [hbody, Bool.false_eq_true, ↓reduceIte] at hfit ⊢
      refine ⟨by simp [PropertyKind.isExpression], ?_,
        by simp [PropertyKind.isComputed, PropertyKind.tag, KindTag.isComputed]⟩
      intro text htext
      cases htext
      exact ⟨hfit.2.1, rfl, rfl⟩

/-- A member becomes a plain property only if its type is not one that associations link to. -/
theorem Member.isValued_of_kind_scalar {source : Source} {member : Member}
    (hkind : member.kind source = .scalar) : member.IsValued source := by
  rw [← Member.refersToTarget_eq_false_iff]
  rw [Member.kind] at hkind
  split at hkind
  · split at hkind <;> cases hkind
  · split at hkind
    · cases hkind
    · next htarget => simpa using htarget

namespace Graph

variable {source : Source} {config : Config} {graph : Graph} {prop : Property}
  {settlement : Settlement}

/-- Every property is what a member with a fitting formula becomes, in a declaration with a
header. -/
theorem Realizes.exists_legalMember (h : graph.Realizes source config)
    (hprop : prop ∈ graph.props) :
    ∃ (declaration : Declaration) (header : Header),
      Header.ofDeclaration source declaration = .ok header ∧
      ∃ member ∈ declaration.members, member.formulaFault? = none ∧
        ∃ id, prop.toPropSpec = member.specOf source id := by
  obtain ⟨key, hkey⟩ := exists_prop?_eq_some hprop
  obtain ⟨_, -, -, declaration, header, -, hheader, member, hmember, id, hmade⟩ :=
    h.exists_origin hkey
  obtain ⟨hformula, -, hspec⟩ := Member.spec_eq_ok_iff.1 hmade
  exact ⟨declaration, header, hheader, member, (Declaration.mem_propertyMembers.1 hmember).1,
    hformula, id, hspec⟩

/-- The name of a property has no dot. -/
theorem Realizes.dot_not_mem_name (h : graph.Realizes source config)
    (hprop : prop ∈ graph.props) : '.' ∉ prop.name.toList := by
  obtain ⟨declaration, header, hheader, member, hmember, -, id, hmade⟩ := h.exists_legalMember hprop
  have hlegal := Header.exists_ok_iff.1 ⟨header, hheader⟩
  rw [show prop.name = _ from congrArg PropSpec.name hmade]
  exact (hlegal.memberNames member hmember).dot_not_mem

/-- A registered type has the category of the one tag of its declaration. -/
theorem Realizes.exists_tag (h : graph.Realizes source config) {type : TypeNode}
    (htype : type ∈ graph.types) :
    ∃ declaration tag, source.declaration? type.qualifiedName = some declaration ∧
      declaration.tags = [tag] ∧ type.category = tag.category := by
  obtain ⟨lineage, hlineage, hplaces⟩ := h.placed type htype
  obtain ⟨blueprint, above, inherited, rfl, hbuilds⟩ := hplaces.head
  obtain ⟨declaration, header, hdeclared, hheader, hblueprint⟩ := hlineage.exists_declaration
  obtain ⟨-, -, props, -, -, -, rfl⟩ := Blueprint.ofDeclaration_eq_ok_iff.1 hblueprint
  obtain ⟨tag, htags, hcategory, -, -⟩ := Header.eq_of_ok hheader
  exact ⟨declaration, tag, hdeclared, htags, hbuilds.category.trans hcategory.symm⟩

/-- What a plain property refers to is an embeddable, once it is registered. -/
theorem Realizes.category_eq_embeddable (h : graph.Realizes source config)
    (hprop : prop ∈ graph.props) (hkind : prop.kind = .scalar) {type : TypeNode}
    (hfound : graph.find? prop.type.innermost = some type) : type.category = .embeddable := by
  obtain ⟨-, -, -, member, -, -, id, hmade⟩ := h.exists_legalMember hprop
  have hvalued : member.IsValued source := by
    refine Member.isValued_of_kind_scalar ?_
    rw [← hkind, show prop.kind = _ from congrArg PropSpec.kind hmade]
    rfl
  obtain ⟨hmem, hname⟩ := h.find?_eq_some_iff.1 hfound
  obtain ⟨declaration, tag, hdeclared, htags, hcategory⟩ := h.exists_tag hmem
  rw [hname, show prop.type = _ from congrArg PropSpec.type hmade] at hdeclared
  rw [hcategory, hvalued declaration hdeclared tag (by simp [htags])]
  rfl

/-! ### What settling decides -/

/-- What a property refers to is what is registered under the name of its type, or nothing if no
declaration has that name. -/
theorem Realizes.linkedType?_eq_ok (h : graph.Realizes source config) (hprop : prop ∈ graph.props)
    {linked : Option TypeNode} (hlinked : graph.linkedType? prop = .ok linked) :
    linked = graph.find? prop.type.innermost ∧
      (linked = none ↔ source.declaration? prop.type.innermost = none) := by
  obtain ⟨key, hkey⟩ := exists_prop?_eq_some hprop
  rw [linkedType?, h.reference_eq hkey] at hlinked
  cases hdeclared : source.declaration? prop.type.innermost with
  | none =>
    rw [hdeclared] at hlinked
    cases hlinked
    cases hfound : graph.find? prop.type.innermost with
    | none => simp
    | some type =>
      -- what is registered is declared
      have hsome : (source.declaration? prop.type.innermost).isSome :=
        h.isSome_declaration? (by rw [hfound]; rfl)
      rw [hdeclared] at hsome
      cases hsome
  | some declaration =>
    rw [hdeclared] at hlinked
    cases hfound : graph.find? prop.type.innermost with
    | none => simp [hfound] at hlinked
    | some type =>
      simp only [Option.map_some, hfound] at hlinked
      cases hlinked
      simp

/-- A type found under the name of a property's type is one to link to. -/
theorem Realizes.linksTo (h : graph.Realizes source config) {type : TypeNode}
    (hfound : graph.find? prop.type.innermost = some type) :
    graph.LinksTo prop (some type.key) type.category := by
  obtain ⟨hmem, hname⟩ := h.find?_eq_some_iff.1 hfound
  obtain ⟨lineage, -, hplaces⟩ := h.placed type hmem
  exact ⟨type.key, type, rfl, hplaces.type?_key, hname, rfl⟩

/-- Dependencies along distinct texts lead along distinct properties, for the names of these give
back the texts. -/
theorem nodup_segments {owner : TypeKey} {paths : List String} {dependencies : List PropPath}
    (hfollow : graph.followDependencies owner paths = .ok (some dependencies))
    (hnodup : paths.Nodup) : (dependencies.map (·.segments)).Nodup := by
  obtain ⟨hraw, hwalk⟩ := walkDependency_of_followDependencies hfollow
  have htext : dependencies.map (·.raw) = (dependencies.map (·.segments)).map fun keys =>
      Text.joinDots (keys.map fun key => (graph.label key).name) := by
    rw [List.map_map]
    refine List.map_congr_left fun dependency hdependency => ?_
    have hpath := walkPath_of_walkDependency (hwalk dependency hdependency)
    show dependency.raw =
      Text.joinDots (dependency.segments.map fun key => (graph.label key).name)
    rw [names_of_walkPath hpath, Text.joinDots_splitDots]
  rw [← hraw, htext] at hnodup
  exact hnodup.of_map _

/-- A plain property is settled to the embeddable of the name of its type, if that is declared. -/
theorem Realizes.target_of_settleScalar (h : graph.Realizes source config)
    (hprop : prop ∈ graph.props) (hkind : prop.kind = .scalar)
    (hsettle : graph.settleScalar prop = .ok settlement) :
    ((source.declaration? prop.type.innermost).isSome = true →
      graph.LinksTo prop settlement.target .embeddable) ∧
    (source.declaration? prop.type.innermost = none → settlement.target = none) ∧
    settlement.dependencies = [] := by
  rw [settleScalar, Except.bind_eq_ok_iff] at hsettle
  obtain ⟨linked, hlinked, hsettle⟩ := hsettle
  obtain ⟨rfl, hnone⟩ := h.linkedType?_eq_ok hprop hlinked
  cases hsettle
  refine ⟨?_, ?_, rfl⟩
  · intro hdeclared
    cases hfound : graph.find? prop.type.innermost with
    | none =>
      rw [hnone.1 hfound] at hdeclared
      cases hdeclared
    | some type =>
      have hembeddable := h.category_eq_embeddable hprop hkind hfound
      have hlinks := h.linksTo hfound
      rw [hembeddable] at hlinks
      rw [Option.filter_some_pos (by simp [hembeddable]), Option.map_some]
      exact hlinks
  · intro hundeclared
    simp [hnone.2 hundeclared]

/-- An association is settled to the entity of the name of its type. -/
theorem Realizes.target_of_settleAssociation (h : graph.Realizes source config)
    (hprop : prop ∈ graph.props) (hsettle : graph.settleAssociation prop = .ok settlement) :
    graph.LinksTo prop settlement.target .entity ∧ settlement.dependencies = [] := by
  rw [settleAssociation, Except.bind_eq_ok_iff] at hsettle
  obtain ⟨linked, hlinked, hsettle⟩ := hsettle
  obtain ⟨rfl, -⟩ := h.linkedType?_eq_ok hprop hlinked
  split at hsettle
  · cases hsettle
  · next type hfound =>
    split at hsettle
    · next hentity =>
      cases hsettle
      exact ⟨hentity ▸ h.linksTo hfound, rfl⟩
    · cases hsettle

/-- What an attempt gives suits the kind of the property. -/
theorem Realizes.suits_of_attempt (h : graph.Realizes source config) (hprop : prop ∈ graph.props)
    (hcoherent : prop.kind.Coherent)
    (hattempt : graph.attempt prop = .ok (some settlement)) :
    graph.Suits source prop settlement := by
  have hfollow := followDependencies_of_attempt hattempt
  have hraw := (walkDependency_of_followDependencies hfollow).1
  rw [attempt] at hattempt
  cases hkind : prop.kind with
  | sql text =>
    simp only [hkind, Except.ok.injEq, Option.some.injEq] at hattempt
    subst hattempt
    exact ⟨by simp [hkind], by simp [hkind], by simp [hkind], fun _ => rfl,
      by simp [hkind, PropertyKind.isExpression], fun _ => rfl⟩
  | scalar =>
    simp only [hkind, Except.map_eq_ok_iff, Option.some.injEq] at hattempt
    obtain ⟨_, hsettle, rfl⟩ := hattempt
    obtain ⟨hdeclared, hundeclared, hnone⟩ := h.target_of_settleScalar hprop hkind hsettle
    have hplain : prop.kind.isComputed = false := by rw [hkind]; rfl
    exact ⟨by simp [hkind], fun _ => hdeclared, fun _ => hundeclared,
      by simp [hplain], by simp [hkind, PropertyKind.isExpression], fun _ => hnone⟩
  | association =>
    simp only [hkind, Except.map_eq_ok_iff, Option.some.injEq] at hattempt
    obtain ⟨_, hsettle, rfl⟩ := hattempt
    obtain ⟨hlinks, hnone⟩ := h.target_of_settleAssociation hprop hsettle
    have hplain : prop.kind.isComputed = false := by rw [hkind]; rfl
    exact ⟨fun _ => hlinks, by simp [hkind], by simp [hkind],
      by simp [hplain], by simp [hkind, PropertyKind.isExpression], fun _ => hnone⟩
  | expression paths =>
    simp only [hkind, Except.map_eq_ok_iff, Option.map_eq_some_iff] at hattempt
    obtain ⟨_, -, dependencies, rfl, rfl⟩ := hattempt
    have hexpression : prop.kind.isExpression = true := by rw [hkind]; rfl
    refine ⟨by simp [hkind], by simp [hkind], by simp [hkind], fun _ => rfl, ?_, ?_⟩
    · intro _
      exact ⟨hraw, nodup_segments hfollow (hcoherent.expression hexpression).2.2.1⟩
    · intro hother
      rw [hexpression] at hother
      cases hother

end Graph

/-- In a reachable registry the kind of every property carries what it needs and nothing else. A
settled property is settled to what its kind asks for: an association links to the entity of the
name that its type has, a plain property to the embeddable of that name if it is declared, and
else to nothing, and an expression has one dependency for each of its paths, along distinct
properties. Any other property links to nothing and depends on nothing. All this is in the records
that were written on the way, and nothing else is. -/
theorem Reachable.kinds {source : Source} {config : Config} {registry : Registry}
    (h : Reachable source config registry) :
    (∀ prop ∈ registry.graph.props, prop.kind.Coherent ∧
      (prop.resolution.isResolved = true →
        registry.graph.Suits source prop prop.resolution.settlement) ∧
      (prop.resolution.isResolved = false →
        prop.resolution.target? = none ∧ prop.resolution.dependencies = [])) ∧
    (∃ records, Written source config registry records) ∧
    ∀ records, Written source config registry records →
      records = registry.graph.props.map Property.record ∧ ∀ record ∈ records, record.IsTidy := by
  refine ⟨?_, h.exists_written, fun records hwritten =>
    ⟨hwritten.records_eq, hwritten.isTidy⟩⟩
  intro prop hprop
  have hrealizes := h.sound.realizes
  obtain ⟨-, -, -, member, -, hfits, id, hmade⟩ := hrealizes.exists_legalMember hprop
  have hcoherent : prop.kind.Coherent := by
    rw [show prop.kind = _ from congrArg PropSpec.kind hmade]
    exact Member.coherent_kind hfits
  refine ⟨hcoherent, ?_, ?_⟩
  · intro hresolved
    cases hresolution : prop.resolution with
    | pending | failed _ =>
      rw [hresolution] at hresolved
      cases hresolved
    | resolved round target dependencies =>
      have hattempt := h.stands prop hprop round target dependencies hresolution
      exact hrealizes.suits_of_attempt hprop hcoherent hattempt
  · intro hunresolved
    cases hresolution : prop.resolution with
    | pending | failed _ => exact ⟨rfl, rfl⟩
    | resolved _ _ _ =>
      rw [hresolution] at hunresolved
      cases hunresolved

/-- Places with an address, within other places. -/
def places : Source where
  declarations := {
    toList := [
      { simpleName := "Place"
        tags := [.entity none]
        members := [
          { name := "id", type := .named "int", tags := [.id] },
          { name := "address", type := .named "Address" },
          { name := "parts", type := .list (.named "Place") },
          { name := "area", type := .named "int", tags := [.formula { sql := "area(shape)" }] },
          { name := "label", type := .named "string", hasBody := true
            tags := [.formula { dependencies := ["address.city", "parts.area"] }] }] },
      { simpleName := "Address"
        tags := [.embeddable]
        members := [{ name := "city", type := .named "string" }] }]
    names_nodup := by decide }

theorem Reachable.kinds_places :
    ∃ registry, Reachable places {} registry ∧
      registry.graph.props.map (·.kind.name) = ["Scalar", "ComputedExpression", "Scalar",
        "Association", "ComputedSql", "Scalar"] ∧
      registry.graph.props.map (·.resolution.settlement) = [
        {}, { dependencies := [⟨"address.city", [⟨2⟩, ⟨5⟩]⟩, ⟨"parts.area", [⟨3⟩, ⟨4⟩]⟩] },
        { target := some ⟨1⟩ }, { target := some ⟨0⟩ }, {}, {}] ∧
      ∀ prop ∈ registry.graph.props, prop.kind.Coherent ∧
        (prop.resolution.isResolved = true →
          registry.graph.Suits places prop prop.resolution.settlement) := by
  have hreachable : LeadsTo places {} {} _ := .step .resolveRounds (.step .resolveAll .refl)
  refine ⟨_, hreachable, by decide +kernel, by decide +kernel, fun prop hprop => ?_⟩
  obtain ⟨hcoherent, hsuits, -⟩ := (Reachable.kinds hreachable).1 prop hprop
  exact ⟨hcoherent, hsuits⟩

end Metamodel
