import Metamodel.Proofs.Graph.Ancestry
import Metamodel.Proofs.Lineage.Roles
import Metamodel.Proofs.WellFormed

/-!
# Special roles of registered types

A type records who plays each special role in it, and it does so from its own tags and from the
record of its ancestor. The record is right about the whole merged view: it names the one property
that is tagged for the role, or there is none (`Places.filter_carries`). `Reachable.exactRoles`
says so of every reachable registry.
-/

namespace Metamodel

open Relation (ReflTransGen TransGen)

/-- A list of at most one item has one order only. -/
theorem List.Perm.eq_toList {α : Type} {items : List α} {item? : Option α}
    (h : items.Perm item?.toList) : items = item?.toList := by
  cases item? with
  | none => exact List.perm_nil.1 h
  | some item => exact List.perm_singleton.1 h

namespace Graph

variable {source : Source} {config : Config} {graph : Graph} {type : TypeNode}
  {blueprint : Blueprint} {lineage : Lineage} {special : Special} {key : PropKey}

/-- Whether the property at a key is tagged for a role. -/
def carries (graph : Graph) (special : Special) (key : PropKey) : Bool :=
  (graph.prop? key).any (·.tags.has special.tag)

/-- Each role of each type is played by the one property of its merged view that is tagged for
the role, and nobody plays it if no property is. -/
structure ExactRoles (graph : Graph) (config : Config) : Prop where
  eq_some_iff : ∀ type ∈ graph.types, ∀ special key, type.specials.get special = some key ↔
    (graph.mergedProps type.key).filter (graph.carries special) = [key]
  eq_none_iff : ∀ type ∈ graph.types, ∀ special, type.specials.get special = none ↔
    ∀ key ∈ graph.mergedProps type.key, graph.carries special key = false
  /-- Descendants keep what is filled. -/
  inherited : ∀ type ∈ graph.types, ∀ descendant ∈ graph.types,
    graph.InheritsFrom descendant type → ∀ special key,
      type.specials.get special = some key → descendant.specials.get special = some key
  noAssociation : ∀ type ∈ graph.types, ∀ special key, type.specials.get special = some key →
    ∃ prop, graph.prop? key = some prop ∧ prop.kind ≠ .association
  embeddable : ∀ type ∈ graph.types, type.category = .embeddable →
    ∀ special, type.specials.get special = none
  identity : config.requireEntityId = true → ∀ type ∈ graph.types, type.category = .entity →
    ∃ key, type.specials.get .identity = some key

theorem carries_eq_named? (graph : Graph) (special : Special) (key : PropKey) :
    graph.carries special key = (graph.named? key).any (·.spec.tags.has special.tag) := by
  rw [carries, named?]
  cases graph.prop? key <;> rfl

/-- As many properties of a type are tagged for a role as of its blueprint. -/
theorem Builds.length_carriers {inherited : Special → Option PropKey}
    (h : graph.Builds type blueprint inherited) (special : Special) :
    (type.declared.filter (graph.carries special)).length =
      (blueprint.carriers special).length := by
  have hlists := h.lists_declared.filter (p := graph.carries special)
    (q := fun prop => prop.spec.tags.has special.tag) fun key prop hkey => by
      rw [carries_eq_named?, hkey]
      rfl
  rw [hlists.length_eq, Blueprint.ownProps, List.filter_map, List.length_map]
  rfl

/-- The record of a role starts with that of the ancestor and goes on with the own property that
is tagged for the role; one of the two is absent at least. -/
theorem Builds.toList_specials {inherited : Special → Option PropKey}
    (h : graph.Builds type blueprint inherited)
    (hfills : blueprint.Fills special ((inherited special).map graph.label)
      (blueprint.specials.get special)) :
    (type.specials.get special).toList =
      (inherited special).toList ++ type.declared.filter (graph.carries special) := by
  have hlength := h.length_carriers special
  rw [h.specials special]
  generalize blueprint.specials.get special = slot at hfills ⊢
  generalize hholder : (inherited special).map graph.label = holder at hfills
  cases hfills with
  | empty hcarriers =>
    rw [hcarriers, List.length_nil, List.length_eq_zero_iff] at hlength
    rw [Option.map_eq_none_iff.1 hholder, hlength]
    rfl
  | inherited hcarriers =>
    rw [hcarriers, List.length_nil, List.length_eq_zero_iff] at hlength
    simp [hlength]
  | @own index spec hspec hcarriers =>
    rw [hcarriers, List.length_singleton] at hlength
    obtain ⟨only, honly⟩ := List.length_eq_one_iff.1 hlength
    -- the property at the position is tagged for the role, so it is the only one
    obtain ⟨hlt, hget⟩ := List.getElem?_eq_some_iff.1 hspec
    have hlt' : index < type.declared.length := h.declared.length_eq ▸ hlt
    have hcarries : graph.carries special type.declared[index] = true := by
      have hspec : spec ∈ blueprint.carriers special := by simp [hcarriers]
      have hnamed : graph.named? type.declared[index] = some ⟨blueprint.qualifiedName, spec⟩ := by
        simpa [Blueprint.ownProps, hget] using
          h.lists_declared.get hlt' (by simpa [Blueprint.ownProps] using hlt)
      rw [carries_eq_named?, hnamed]
      exact (List.mem_filter.1 hspec).2
    have hmem := List.mem_filter.2 ⟨List.getElem_mem hlt', hcarries⟩
    rw [honly, List.mem_singleton] at hmem
    simp only [Option.map_eq_none_iff.1 hholder, honly, ← hmem, List.getElem?_eq_getElem hlt']
    rfl

/-- The record of a role names whatever property of the merged view is tagged for the role. -/
theorem Places.filter_carries (h : graph.Places type lineage) {name : String}
    (hlineage : source.HasLineage config name lineage) (special : Special) :
    (graph.mergedProps type.key).filter (graph.carries special) =
      (type.specials.get special).toList := by
  induction h generalizing name with
  | root hbuilds hroot =>
    have hfills := hlineage.checkedRoles.fills special
    rw [hbuilds.mergedProps_root hroot, hbuilds.toList_specials hfills]
    rfl
  | @child type parent blueprint above hbuilds hparent hlt hplaces ih =>
    obtain ⟨ancestor, habove⟩ := hplaces.exists_lineage hlineage
    have hfills := hlineage.checkedRoles.fills special
    rw [← hplaces.map_label_specials] at hfills
    have hperm := (mergeLevel_perm graph (graph.mergedProps parent.key) type.declared).filter
      (graph.carries special)
    rw [List.filter_append, ih habove, ← hbuilds.toList_specials hfills] at hperm
    rw [hbuilds.mergedProps_child hparent hlt]
    exact List.Perm.eq_toList hperm

/-- Who plays a role is in the merged view and tagged for the role. -/
theorem Places.mem_of_specials (h : graph.Places type lineage) {name : String}
    (hlineage : source.HasLineage config name lineage)
    (hkey : type.specials.get special = some key) :
    key ∈ graph.mergedProps type.key ∧ graph.carries special key = true := by
  have hfilter := h.filter_carries hlineage special
  rw [hkey, Option.toList_some] at hfilter
  exact List.mem_filter.1 (hfilter ▸ List.mem_singleton_self key)

/-- No association is tagged for a role. -/
theorem Realizes.exists_of_carries (h : graph.Realizes source config)
    (hcarries : graph.carries special key = true) :
    ∃ prop, graph.prop? key = some prop ∧ prop.kind ≠ .association := by
  obtain ⟨prop, hprop, htag⟩ := (Option.any_eq_true _ _).1 hcarries
  obtain ⟨_, blueprint, above, -, -, hlineage, -, -, hspec⟩ := h.exists_owner hprop
  have hkind := hlineage.checkedRoles.noAssociation special _ (List.mem_filter.2 ⟨hspec, htag⟩)
  refine ⟨prop, hprop, ?_⟩
  rintro hassociation
  rw [hassociation] at hkind
  cases hkind

/-- In a graph of placed types the roles are exact. -/
theorem Realizes.roles (h : graph.Realizes source config) : graph.ExactRoles config where
  eq_some_iff type htype special key := by
    obtain ⟨lineage, hlineage, hplaces⟩ := h.placed type htype
    rw [hplaces.filter_carries hlineage, Option.toList_eq_singleton_iff]
  eq_none_iff type htype special := by
    obtain ⟨lineage, hlineage, hplaces⟩ := h.placed type htype
    rw [← Option.toList_eq_nil_iff, ← hplaces.filter_carries hlineage, List.filter_eq_nil_iff]
    simp
  inherited type htype descendant hdescendant hinherits special key hkey := by
    obtain ⟨lineage, hlineage, hplaces⟩ := h.placed type htype
    obtain ⟨lineage', hlineage', hplaces'⟩ := h.placed descendant hdescendant
    -- the descendant has the property too, and only one is tagged for the role
    obtain ⟨hmem, hcarries⟩ := hplaces.mem_of_specials hlineage hkey
    have hmem' := List.mem_filter.2 ⟨hplaces'.mem_of_inheritsFrom hplaces hinherits hmem, hcarries⟩
    rw [hplaces'.filter_carries hlineage'] at hmem'
    exact Option.mem_toList.1 hmem'
  noAssociation type htype special key hkey := by
    obtain ⟨lineage, hlineage, hplaces⟩ := h.placed type htype
    exact h.exists_of_carries (hplaces.mem_of_specials hlineage hkey).2
  embeddable type htype hcategory special := by
    obtain ⟨lineage, hlineage, hplaces⟩ := h.placed type htype
    have hholder := hplaces.map_label_specials special
    obtain ⟨blueprint, above, inherited, rfl, hbuilds⟩ := hplaces.head
    rw [hlineage.holder_eq_none fun first hfirst => by
      obtain rfl : blueprint = first := by simpa using hfirst
      rw [← hbuilds.category, hcategory]] at hholder
    exact Option.map_eq_none_iff.1 hholder
  identity hrequire type htype hcategory := by
    obtain ⟨lineage, hlineage, hplaces⟩ := h.placed type htype
    have hholder := hplaces.map_label_specials .identity
    obtain ⟨blueprint, above, inherited, rfl, hbuilds⟩ := hplaces.head
    obtain ⟨holder, hfilled⟩ := hlineage.exists_identity hrequire (hbuilds.category ▸ hcategory)
    rw [hfilled, Option.map_eq_some_iff] at hholder
    obtain ⟨key, hkey, -⟩ := hholder
    exact ⟨key, hkey⟩

end Graph

variable {source : Source} {config : Config} {registry : Registry}

/-- After any calls from the empty registry on, failing ones included, each type records exactly
who plays each special role in it. -/
theorem Reachable.exactRoles (h : Reachable source config registry) :
    registry.graph.ExactRoles config :=
  h.sound.realizes.roles

/-- Documents below two mapped superclasses, of which one declares nothing. The revision is
declared at the top; the number of a document is its identity and its deletion mark. -/
def archive : Source where
  declarations := {
    toList := [
      { simpleName := "Document"
        tags := [.entity none]
        interfaces := ["Filed"]
        members := [
          { name := "title", type := .named "string" },
          { name := "number", type := .named "int", tags := [.logicalDeleted, .id] }] },
      { simpleName := "Filed"
        tags := [.mappedSuperclass none false]
        interfaces := ["Tracked"] },
      { simpleName := "Tracked"
        tags := [.mappedSuperclass none false]
        members := [
          { name := "created", type := .named "date" },
          { name := "revision", type := .named "int", tags := [.version] }] }]
    names_nodup := by decide }

theorem Reachable.exactRoles_archive :
    ∃ registry, Reachable archive {} registry ∧
      registry.graph.types.map (·.specials) =
        [⟨none, some ⟨1⟩, none⟩, ⟨none, some ⟨1⟩, none⟩, ⟨some ⟨2⟩, some ⟨1⟩, some ⟨2⟩⟩] ∧
      registry.graph.ExactRoles {} := by
  have hreachable : LeadsTo archive {} {} _ := .step (.resolve "Document") .refl
  exact ⟨_, hreachable, by decide +kernel, Reachable.exactRoles hreachable⟩

end Metamodel
