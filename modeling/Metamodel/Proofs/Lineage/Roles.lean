import Metamodel.Proofs.Blueprint.Specials
import Metamodel.Proofs.Lineage

/-!
# Special roles of a lineage

The checks of a type see only what its ancestor lends: whether each role is filled above. This is
enough for the whole lineage: `HasLineage.checkedRoles` says how each slot of a legal blueprint
goes together with its tags and with what stands above, and what the category and the
configuration add to that.
-/

namespace Metamodel

/-- The properties of a blueprint that are tagged for a role. -/
def Blueprint.carriers (blueprint : Blueprint) (special : Special) : List PropSpec :=
  blueprint.props.filter (·.tags.has special.tag)

/-- What the slot of a role says about the tags of a blueprint and about the role above it. -/
inductive Blueprint.Fills (blueprint : Blueprint) (special : Special) :
    Option PropLabel → Slot → Prop where
  | empty :
    blueprint.carriers special = [] →
    Fills blueprint special none .empty
  | inherited {holder : PropLabel} :
    blueprint.carriers special = [] →
    Fills blueprint special (some holder) .inherited
  | own {index : Nat} {spec : PropSpec} :
    blueprint.props[index]? = some spec →
    blueprint.carriers special = [spec] →
    Fills blueprint special none (.own index)

/-- What the checks establish of the special roles of a blueprint below others. -/
structure Blueprint.CheckedRoles (blueprint : Blueprint) (config : Config) (above : Lineage) :
    Prop where
  fills : ∀ special, blueprint.Fills special (Lineage.holder special above)
    (blueprint.specials.get special)
  noAssociation : ∀ special, ∀ spec ∈ blueprint.carriers special, spec.kind.isAssociation = false
  embeddable : blueprint.category = .embeddable → ∀ special, blueprint.carriers special = []
  parent : blueprint.category = .embeddable → ∀ parent ∈ above.head?,
    parent.category = .embeddable
  identity : config.requireEntityId = true → blueprint.category = .entity →
    blueprint.specials.get .identity ≠ .empty

variable {source : Source} {config : Config}

/-- A context that breaks no rule fills its slots as its properties are tagged. -/
theorem Blueprint.fills_slot {context : SpecialContext} (blueprint : Blueprint)
    (hprops : blueprint.props = context.props) (hnone : context.violation? config = none)
    (special : Special) :
    blueprint.Fills special (context.inherited.get special) (context.slot special) := by
  obtain ⟨htaken, -, hrepeated, -, -⟩ := SpecialContext.violation?_eq_none_iff.1 hnone
  have hcarriers : blueprint.carriers special = context.own special := by
    rw [carriers, hprops, SpecialContext.own]
  cases hslot : context.slot special with
  | empty =>
    obtain ⟨hinherited, hown⟩ := SpecialContext.slot_eq_empty_iff.1 hslot
    rw [Option.isSome_eq_false_iff, Option.isNone_iff_eq_none] at hinherited
    rw [hinherited]
    exact .empty (hcarriers.trans hown)
  | inherited =>
    have hinherited := SpecialContext.slot_eq_inherited_iff.1 hslot
    obtain ⟨holder, hholder⟩ := Option.isSome_iff_exists.1 hinherited
    rw [hholder]
    exact .inherited (hcarriers.trans (htaken special hinherited))
  | own index =>
    obtain ⟨hinherited, spec, hspec, hmem⟩ := SpecialContext.exists_of_slot_own hslot
    rw [Option.isSome_eq_false_iff, Option.isNone_iff_eq_none] at hinherited
    rw [hinherited]
    refine .own (hprops ▸ hspec) (hcarriers.trans ?_)
    -- one property is tagged for the role, and at most one is
    obtain ⟨only, honly⟩ := List.length_eq_one_iff.1
      (Nat.le_antisymm (hrepeated special) (List.length_pos_of_mem hmem))
    rw [honly, List.mem_singleton] at hmem
    rw [honly, hmem]

namespace Source.HasLineage

/-- Every blueprint of a lineage has passed the checks below those above it. -/
theorem checkedRoles {name : String} {blueprint : Blueprint} {above : Lineage}
    (h : source.HasLineage config name (blueprint :: above)) :
    blueprint.CheckedRoles config above := by
  obtain ⟨declaration, header, -, -, hblueprint⟩ := h.exists_declaration
  obtain ⟨hancestor, -, props, -, -, hnone, rfl⟩ := Blueprint.ofDeclaration_eq_ok_iff.1 hblueprint
  let blueprint := Blueprint.withProps config declaration header above.inherited? props
  obtain ⟨-, hdisallowed, -, hassociation, hidentity⟩ :=
    SpecialContext.violation?_eq_none_iff.1 hnone
  have hfills (special : Special) : blueprint.Fills special (Lineage.holder special above)
      (blueprint.specials.get special) := by
    have hslot : blueprint.specials.get special =
        (Blueprint.specialContext declaration header above.inherited? props).slot special :=
      Specials.get_tabulate ..
    rw [hslot, ← Lineage.specials_inherited?]
    exact Blueprint.fills_slot blueprint rfl hnone special
  refine ⟨hfills, hassociation, ?_, ?_, ?_⟩
  · intro hcategory special
    have hnotAllowed : header.category.allowsSpecials = false := by
      rw [show header.category = .embeddable from hcategory]
      rfl
    exact hdisallowed special hnotAllowed
  · intro hcategory parent hparent
    cases above with
    | nil => simp at hparent
    | cons next rest =>
      obtain rfl : next = parent := by simpa using hparent
      have hheader : header.category = .embeddable := hcategory
      simp only [Lineage.inherited?, Option.bind_some, Header.ancestorFault?, hheader,
        Category.accepts] at hancestor
      split at hancestor
      · cases hancestor
      · next haccepts => simpa using haccepts
  · intro hrequire hcategory hslot
    have hfill := hfills .identity
    rw [hslot] at hfill
    generalize hholder : Lineage.holder .identity above = holder at hfill
    cases hfill with
    | empty hcarriers =>
      rcases hidentity hcategory hrequire with hsome | hne
      · rw [Blueprint.specialContext, Lineage.specials_inherited?, hholder] at hsome
        cases hsome
      · exact hne hcarriers

/-- Nobody plays a role in an embeddable. -/
theorem holder_eq_none {name : String} {lineage : Lineage}
    (h : source.HasLineage config name lineage)
    (hcategory : ∀ blueprint ∈ lineage.head?, blueprint.category = .embeddable)
    (special : Special) : lineage.holder special = none := by
  induction lineage generalizing name with
  | nil => rfl
  | cons blueprint above ih =>
    have hchecked := h.checkedRoles
    have hembeddable : blueprint.category = .embeddable := hcategory blueprint rfl
    have habove : Lineage.holder special above = none := by
      rcases h.above with rfl | ⟨ancestor, habove⟩
      · rfl
      · exact ih habove (hchecked.parent hembeddable)
    have hfills := hchecked.fills special
    have hnone := hchecked.embeddable hembeddable special
    rw [Lineage.holder]
    generalize blueprint.specials.get special = slot at hfills ⊢
    generalize Lineage.holder special above = holder at hfills habove ⊢
    cases hfills with
    | empty _ => rfl
    | inherited _ => exact habove
    | own _ hcarriers => rw [hnone] at hcarriers; cases hcarriers

/-- An entity has its identity where entities must. -/
theorem exists_identity {name : String} {blueprint : Blueprint} {above : Lineage}
    (h : source.HasLineage config name (blueprint :: above))
    (hrequire : config.requireEntityId = true) (hcategory : blueprint.category = .entity) :
    ∃ holder, Lineage.holder .identity (blueprint :: above) = some holder := by
  have hfills := h.checkedRoles.fills .identity
  have hfilled := h.checkedRoles.identity hrequire hcategory
  rw [Lineage.holder]
  generalize blueprint.specials.get .identity = slot at hfills hfilled ⊢
  generalize Lineage.holder .identity above = holder at hfills ⊢
  cases hfills with
  | empty _ => exact absurd rfl hfilled
  | inherited _ => exact ⟨_, rfl⟩
  | own hspec _ => simp [Blueprint.ownProps, hspec]

end Source.HasLineage

end Metamodel
