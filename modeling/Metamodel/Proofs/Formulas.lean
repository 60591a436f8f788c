import Metamodel.Proofs.Graph.Whole

/-!
# Formulas of properties

The formula that makes a member computed fits the member: beside a body it lists what the property
is computed from, and on any other member it is a text for the database. A declaration with a member
whose formula does not fit is never registered: `Reachable.fitsFormulas`. Tags may hold more
formulas than one. The first of them is the one that counts, and what the others say is looked at
nowhere, so that they need not fit (`Reachable.exists_misfit_prices`).
-/

namespace Metamodel

/-- A formula fits a member. With a body that is an expression, which lists distinct paths without
blank segments and has no text for the database; without one it is such a text and lists nothing. -/
structure Formula.Fits (formula : Formula) (hasBody : Bool) : Prop where
  expression : hasBody = true →
    formula.sql = "" ∧ formula.dependencies ≠ [] ∧ formula.dependencies.Nodup ∧
      ∀ dependency ∈ formula.dependencies, ∀ segment ∈ Text.splitDots dependency,
        Text.isBlank segment = false
  query : hasBody = false → formula.sql ≠ "" ∧ formula.dependencies = []

/-- Tags hold a formula, and no other before it. -/
def TagSet.LeadsWith (tags : TagSet) (formula : Formula) : Prop :=
  ∃ before after, tags = before ++ .formula formula :: after ∧ ∀ other, .formula other ∉ before

/-- A property is what a member of the declaration of its type became. -/
def Graph.StemsFrom (graph : Graph) (source : Source) (prop : Property) (member : Member) : Prop :=
  ∃ owner declaration, graph.type? prop.declaringType = some owner ∧
    source.declaration? owner.qualifiedName = some declaration ∧
    member ∈ declaration.members ∧ member.name = prop.name ∧ member.tags = prop.tags

/-! ### The formula that counts -/

namespace TagSet

variable {tags : TagSet} {formula : Formula}

/-- The formula to find among tags is the one that no other stands before. -/
theorem formula?_eq_some_iff : tags.formula? = some formula ↔ tags.LeadsWith formula := by
  have hcarries {tag : Tag} : tag.formula? = some formula ↔ tag = .formula formula := by
    cases tag <;> simp [Tag.formula?]
  have hnone {before : TagSet} :
      (∀ tag ∈ before, tag.formula? = none) ↔ ∀ other, .formula other ∉ before := by
    constructor
    · intro h other hother
      cases h _ hother
    · intro h tag htag
      cases tag with
      | formula other => exact absurd htag (h other)
      | _ => rfl
  rw [formula?, List.findSome?_eq_some_iff]
  simp only [hcarries, hnone, LeadsWith]
  constructor
  · rintro ⟨before, tag, after, heq, rfl, hbefore⟩
    exact ⟨before, after, heq, hbefore⟩
  · rintro ⟨before, after, heq, hbefore⟩
    exact ⟨before, _, after, heq, rfl, hbefore⟩

/-- The only formula among tags is the one that counts. -/
theorem leadsWith_of_forall_eq (hmem : .formula formula ∈ tags)
    (h : ∀ other, .formula other ∈ tags → other = formula) : tags.LeadsWith formula := by
  rw [← formula?_eq_some_iff]
  cases hfound : tags.formula? with
  | none =>
    rw [formula?, List.findSome?_eq_none_iff] at hfound
    cases hfound _ hmem
  | some other =>
    obtain ⟨before, after, rfl, -⟩ := formula?_eq_some_iff.1 hfound
    rw [h other (by simp)]

end TagSet

namespace Member

variable {member : Member} {formula : Formula}

/-- A member is accepted only if the formula that counts fits it. -/
theorem fits_of_formulaFault? (hfault : member.formulaFault? = none)
    (hleads : member.tags.LeadsWith formula) : formula.Fits member.hasBody := by
  have hfit := formulaFault?_eq_none_iff.1 hfault formula (TagSet.formula?_eq_some_iff.2 hleads)
  constructor
  · intro hbody
    rwa [if_pos hbody] at hfit
  · intro hbody
    rw [if_neg (by simp [hbody])] at hfit
    exact hfit.2

/-- The formula that counts is also the one that a member is computed from. -/
theorem kind_of_leadsWith (source : Source) (hleads : member.tags.LeadsWith formula) :
    member.kind source =
      if member.hasBody then .expression formula.dependencies else .sql formula.sql := by
  rw [kind, TagSet.formula?_eq_some_iff.2 hleads]

/-- A member with a formula becomes a property. -/
theorem isProperty_of_leadsWith (hleads : member.tags.LeadsWith formula) :
    member.isProperty = true := by
  have hhas : member.tags.has .formula = true := by
    rw [← TagSet.isSome_formula?, TagSet.formula?_eq_some_iff.2 hleads]
    rfl
  simp [isProperty, hhas]

end Member

/-! ### Registered types -/

namespace Source

variable {source : Source} {config : Config} {name : String} {lineage : Lineage}
  {declaration : Declaration} {member : Member}

/-- All members of a declaration that has a lineage are accepted. -/
theorem HasLineage.formulaFault?_eq_none (h : source.HasLineage config name lineage)
    (hdeclared : source.declaration? name = some declaration)
    (hmember : member ∈ declaration.members) (hproperty : member.isProperty = true) :
    member.formulaFault? = none := by
  obtain ⟨blueprint, above, rfl, -⟩ := h.head
  obtain ⟨_, header, hdeclared', -, hblueprint⟩ := h.exists_declaration
  obtain rfl := Option.some.inj (hdeclared.symm.trans hdeclared')
  obtain ⟨-, -, props, hprops, -, -, rfl⟩ := Blueprint.ofDeclaration_eq_ok_iff.1 hblueprint
  exact (Declaration.exists_propSpecs_iff.1 ⟨props, hprops⟩ member hmember hproperty).1

end Source

namespace Graph

variable {source : Source} {config : Config} {graph : Graph} {prop : Property} {type : TypeNode}
  {declaration : Declaration} {member : Member} {formula : Formula}

/-- Every property stems from an accepted member. -/
theorem Realizes.exists_stemsFrom (h : graph.Realizes source config) (hprop : prop ∈ graph.props) :
    ∃ member, graph.StemsFrom source prop member ∧ member.formulaFault? = none ∧
      prop.kind = member.kind source := by
  obtain ⟨key, hkey⟩ := exists_prop?_eq_some hprop
  obtain ⟨owner, -, howner, declaration, _, hdeclared, -, member, hmember, id, hmade⟩ :=
    h.exists_origin hkey
  obtain ⟨hfault, -, hspec⟩ := Member.spec_eq_ok_iff.1 hmade
  exact ⟨member, ⟨owner, declaration, howner, hdeclared,
    (Declaration.mem_propertyMembers.1 hmember).1, (congrArg PropSpec.name hspec).symm,
    (congrArg PropSpec.tags hspec).symm⟩, hfault, congrArg PropSpec.kind hspec⟩

/-- The formulas that count for the members of a registered type fit them. -/
theorem Realizes.fits (h : graph.Realizes source config) (htype : type ∈ graph.types)
    (hdeclared : source.declaration? type.qualifiedName = some declaration)
    (hmember : member ∈ declaration.members) (hleads : member.tags.LeadsWith formula) :
    formula.Fits member.hasBody := by
  obtain ⟨lineage, hlineage, -⟩ := h.placed type htype
  exact Member.fits_of_formulaFault? (hlineage.formulaFault?_eq_none hdeclared hmember
    (Member.isProperty_of_leadsWith hleads)) hleads

end Graph

/-- In a reachable registry the first formula among the tags of a property fits the member that the
property stems from, and is the one that it is computed from. A declaration with a member that its
first formula does not fit is rejected by `Registry.resolve` in every reachable registry and
registered in none. -/
theorem Reachable.fitsFormulas {source : Source} {config : Config} {registry : Registry}
    (h : Reachable source config registry) :
    (∀ prop ∈ registry.graph.props, ∃ member, registry.graph.StemsFrom source prop member ∧
      ∀ formula, prop.tags.LeadsWith formula → formula.Fits member.hasBody ∧
        prop.kind =
          if member.hasBody then .expression formula.dependencies else .sql formula.sql) ∧
    ∀ name declaration, source.declaration? name = some declaration →
      ∀ member ∈ declaration.members, ∀ formula, member.tags.LeadsWith formula →
        ¬ formula.Fits member.hasBody →
          (∃ violation, (registry.resolve source config name).result = .error violation) ∧
          (∀ type ∈ registry.graph.types, type.qualifiedName ≠ name) ∧
          ∀ type ∈ (registry.resolve source config name).registry.graph.types,
            type.qualifiedName ≠ name := by
  have hrealizes := h.sound.realizes
  constructor
  · intro prop hprop
    obtain ⟨member, hstems, hfault, hkind⟩ := hrealizes.exists_stemsFrom hprop
    refine ⟨member, hstems, fun formula hleads => ?_⟩
    obtain ⟨-, -, -, -, -, -, htags⟩ := hstems
    rw [← htags] at hleads
    exact ⟨Member.fits_of_formulaFault? hfault hleads,
      hkind.trans (Member.kind_of_leadsWith source hleads)⟩
  · intro name declaration hdeclared member hmember formula hleads hmisfit
    have habsent {graph : Graph} (hgraph : graph.Realizes source config) :
        ∀ type ∈ graph.types, type.qualifiedName ≠ name := by
      rintro type htype rfl
      exact hmisfit (hgraph.fits htype hdeclared hmember hleads)
    have hregisters := registry.resolve_registers hrealizes name
    exact ⟨hregisters.exists_error (habsent hregisters.realizes), habsent hrealizes,
      habsent hregisters.realizes⟩

/-- What prices and invoices are computed from. -/
def net : Member where
  name := "net"
  type := .named "int"

/-- A price, computed by the database and as an expression. -/
def price : Declaration where
  simpleName := "Price"
  tags := [.embeddable]
  members := [
    net,
    { name := "gross", type := .named "int", tags := [.formula { sql := "net * 2" }] },
    { name := "label", type := .named "string", hasBody := true
      tags := [.formula { dependencies := ["net", "gross"] }] }]

/-- A total, computed by the database, that lists what it is computed from. -/
def total : Member where
  name := "total"
  type := .named "int"
  tags := [.formula { dependencies := ["net"] }]

/-- A total with one more formula, for which it would have to have a body. -/
def taxedTotal : Member where
  name := "total"
  type := .named "int"
  tags := [.formula { sql := "net * 2" }, .formula { dependencies := ["net"] }]

/-- Prices, with invoices that have either total. -/
def prices : Source where
  declarations := {
    toList := [price,
      { simpleName := "Invoice", tags := [.embeddable], members := [net, total] },
      { simpleName := "TaxedInvoice", tags := [.embeddable], members := [net, taxedTotal] }]
    names_nodup := by decide }

theorem Reachable.fitsFormulas_prices :
    ∃ registry, Reachable prices {} registry ∧
      registry.graph.props.map (·.kind.name) = ["ComputedExpression", "Scalar", "ComputedSql"] ∧
      (∀ prop ∈ registry.graph.props, ∃ member, registry.graph.StemsFrom prices prop member ∧
        ∀ formula, prop.tags.LeadsWith formula → formula.Fits member.hasBody) ∧
      ∃ violation, (registry.resolve prices {} "Invoice").result = .error violation := by
  have hreachable : LeadsTo prices {} {} _ := .step (.resolve "Price") .refl
  obtain ⟨hfits, hrejects⟩ := Reachable.fitsFormulas hreachable
  refine ⟨_, hreachable, by decide +kernel, fun prop hprop => ?_, ?_⟩
  · obtain ⟨member, hstems, hformulas⟩ := hfits prop hprop
    exact ⟨member, hstems, fun formula hleads => (hformulas formula hleads).1⟩
  · have hleads : total.tags.LeadsWith { dependencies := ["net"] } :=
      TagSet.leadsWith_of_forall_eq (by decide) (by simp [total])
    refine (hrejects "Invoice" _ rfl total (by simp) _ hleads ?_).1
    intro hfit
    exact absurd (hfit.query rfl).1 (by decide)

/-- A registered property has a formula, after the one that counts, that does not fit its member. -/
theorem Reachable.exists_misfit_prices :
    ∃ registry, Reachable prices {} registry ∧
      ∃ prop ∈ registry.graph.props, ∃ member, registry.graph.StemsFrom prices prop member ∧
        ∃ formula, .formula formula ∈ prop.tags ∧ ¬ formula.Fits member.hasBody := by
  have hreachable : LeadsTo prices {} {} _ := .step (.resolve "TaxedInvoice") .refl
  obtain ⟨prop, hprop, hshape⟩ := Option.map_eq_some_iff.1
    (show ((Command.run prices {} {} (.resolve "TaxedInvoice")).registry.graph.props[1]?).map
      (fun prop => (prop.declaringType, prop.name, prop.tags)) =
      some (⟨0⟩, taxedTotal.name, taxedTotal.tags) by decide +kernel)
  obtain ⟨type, htype, hname⟩ := Option.map_eq_some_iff.1
    (show ((Command.run prices {} {} (.resolve "TaxedInvoice")).registry.graph.type? ⟨0⟩).map
      (·.qualifiedName) = some "TaxedInvoice" by decide +kernel)
  simp only [Prod.mk.injEq] at hshape
  obtain ⟨howner, hpropName, htags⟩ := hshape
  refine ⟨_, hreachable, prop, List.mem_of_getElem? hprop, taxedTotal,
    ⟨type, _, by rw [howner, htype], by rw [hname]; rfl, by simp, hpropName.symm, htags.symm⟩,
    { dependencies := ["net"] }, by rw [htags]; decide, ?_⟩
  intro hfit
  exact absurd (hfit.query rfl).1 (by decide)

end Metamodel
