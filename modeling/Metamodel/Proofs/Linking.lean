import Mathlib.Data.List.Perm.Subperm
import Metamodel.Proofs.Graph.Ancestry
import Metamodel.Proofs.Registration

/-!
# Registration of what properties refer to

`Registry.linkTargets` looks at every property in the order of registration and registers what it
refers to (`Registry.linkTarget_cases`). This may add properties, but they come after the one that
is looked at, so that they are looked at in their turn; and since each of them belongs to a declared
member of its own, there are never more of them than it has time for
(`Graph.Realizes.length_props_le`). If all declarations can be registered, it succeeds, and whatever
some property refers to is registered then (`Registry.linkTargets_linked`).
-/

namespace Metamodel

namespace Graph

variable {source : Source} {config : Config} {graph : Graph} {key key' : PropKey}
  {prop prop' : Property}

/-! ### Labels -/

/-- Where a key is in use there is a property. -/
theorem exists_prop?_of_mem_propKeys (hkey : key ∈ graph.propKeys) :
    ∃ prop, graph.prop? key = some prop := by
  obtain ⟨index, hindex, rfl⟩ := List.mem_map.1 hkey
  exact ⟨_, List.getElem?_eq_getElem (List.mem_range.1 hindex)⟩

/-- A type has what it declares. -/
theorem Places.mem_of_declared {type : TypeNode} {lineage : Lineage}
    (h : graph.Places type lineage) (hkey : key ∈ type.declared) :
    key ∈ graph.mergedProps type.key :=
  h.mem_mergedProps_iff.2 ⟨type, .refl, hkey⟩

namespace Realizes

/-- No two properties have one label. -/
theorem key_eq_of_label (h : graph.Realizes source config) (hkey : graph.prop? key = some prop)
    (hkey' : graph.prop? key' = some prop') (hlabel : graph.label key = graph.label key') :
    key = key' := by
  obtain ⟨type, _, _, htype, hmem, hlineage, hplaces, howner, -⟩ := h.exists_owner hkey
  obtain ⟨type', _, _, htype', hmem', -, hplaces', howner', -⟩ := h.exists_owner hkey'
  have hname : type.qualifiedName = type'.qualifiedName := by
    have howners := congrArg PropLabel.owner hlabel
    simpa [label, hkey, hkey', howner, howner', typeName, hplaces.type?_key,
      hplaces'.type?_key] using howners
  -- both are declared by one type, where names are distinct
  obtain rfl : type = type' := by
    have hfound := h.find?_qualifiedName htype
    rw [hname, h.find?_qualifiedName htype'] at hfound
    exact (Option.some.inj hfound).symm
  exact List.inj_on_of_nodup_map (hplaces.names_nodup hlineage) (hplaces.mem_of_declared hmem)
    (hplaces.mem_of_declared hmem') (congrArg PropLabel.name hlabel)

/-- Every property has the label of a declared member. -/
theorem exists_member (h : graph.Realizes source config) (hkey : graph.prop? key = some prop) :
    ∃ declaration ∈ source.declarations.toList, ∃ member ∈ declaration.members,
      graph.label key = ⟨declaration.qualifiedName, member.name⟩ := by
  obtain ⟨owner, -, howner, declaration, _, hdeclared, -, member, hmember, id, hmade⟩ :=
    h.exists_origin hkey
  refine ⟨declaration, List.mem_of_find?_eq_some hdeclared, member,
    (List.mem_filter.1 (declaration.propertyMembers_perm.mem_iff.1 hmember)).1, ?_⟩
  have hname : prop.name = member.name :=
    congrArg PropSpec.name (Member.spec_eq_ok_iff.1 hmade).2.2
  simp [label, hkey, howner, typeName, hname,
    Source.qualifiedName_of_declaration? hdeclared]

/-- The labels of all properties are distinct. -/
theorem nodup_labels (h : graph.Realizes source config) :
    (graph.propKeys.map graph.label).Nodup := by
  refine List.Nodup.map_on ?_ (List.nodup_range.map fun _ _ heq => PropKey.mk.inj heq)
  intro key hkey other hother hsame
  obtain ⟨prop, hprop⟩ := exists_prop?_of_mem_propKeys hkey
  obtain ⟨prop', hprop'⟩ := exists_prop?_of_mem_propKeys hother
  exact h.key_eq_of_label hprop hprop' hsame

/-- There are no more properties than declared members. -/
theorem length_props_le (h : graph.Realizes source config) :
    graph.props.length ≤ source.memberCount := by
  let members : List PropLabel := source.declarations.toList.flatMap fun declaration =>
    declaration.members.map fun member => ⟨declaration.qualifiedName, member.name⟩
  have hcount : members.length = source.memberCount := by
    simp [members, Source.memberCount, List.length_flatMap]
  have hsubset : graph.propKeys.map graph.label ⊆ members := by
    intro label hlabel
    obtain ⟨key, hkey, rfl⟩ := List.mem_map.1 hlabel
    obtain ⟨prop, hprop⟩ := exists_prop?_of_mem_propKeys hkey
    obtain ⟨declaration, hdeclaration, member, hmember, heq⟩ := h.exists_member hprop
    rw [heq]
    exact List.mem_flatMap.2 ⟨declaration, hdeclaration, List.mem_map_of_mem hmember⟩
  have hle := (h.nodup_labels.subperm hsubset).length_le
  rwa [List.length_map, propKeys, List.length_map, List.length_range, hcount] at hle

end Realizes

/-! ### Links -/

/-- What the properties before an index refer to is registered, as far as it is declared. -/
def LinksBefore (graph : Graph) (source : Source) (index : Nat) : Prop :=
  ∀ key prop, key.index < index → graph.prop? key = some prop →
    (source.declaration? prop.type.innermost).isSome →
    (graph.find? prop.type.innermost).isSome

/-- What any property refers to is registered, as far as it is declared. -/
def LinksAll (graph : Graph) (source : Source) : Prop :=
  ∀ key prop, graph.prop? key = some prop →
    (source.declaration? prop.type.innermost).isSome →
    (graph.find? prop.type.innermost).isSome

theorem LinksBefore.linksAll {index : Nat} (h : graph.LinksBefore source index)
    (hend : graph.props.length ≤ index) : graph.LinksAll source :=
  fun key prop hprop => h key prop ((List.getElem?_eq_some_iff.1 hprop).1.trans_le hend) hprop

end Graph

theorem Outcome.forget_eq_ok_iff {α : Type} {outcome : Outcome α} {after : Registry} :
    outcome.forget = ⟨.ok (), after⟩ ↔
      (∃ value, outcome.result = .ok value) ∧ outcome.registry = after := by
  simp [Outcome.forget, Except.map_eq_ok_iff]

namespace Registry

variable {source : Source} {config : Config} {registry after : Registry} {index : Nat}

/-! ### Linking one property -/

/-- To link the target of a property registers what the property refers to, if that is declared,
and changes nothing otherwise. -/
theorem linkTarget_cases (h : registry.graph.Realizes source config) (key : PropKey) :
    (∃ prop, registry.graph.prop? key = some prop ∧
      (source.declaration? prop.type.innermost).isSome ∧
      registry.linkTarget source config key =
        (registry.resolve source config prop.type.innermost).forget) ∨
    (∀ prop, registry.graph.prop? key = some prop →
        source.declaration? prop.type.innermost = none) ∧
      registry.linkTarget source config key = ⟨.ok (), registry⟩ := by
  rw [linkTarget]
  cases hprop : registry.graph.prop? key with
  | none => exact .inr ⟨by simp, rfl⟩
  | some prop =>
    rw [Option.bind_some, h.reference_eq hprop]
    cases hdeclared : source.declaration? prop.type.innermost with
    | none => exact .inr ⟨by simpa using hdeclared, rfl⟩
    | some declaration => exact .inl ⟨prop, rfl, by simp [hdeclared], rfl⟩

/-- It adds types or nothing, and keeps every type in its place. -/
theorem linkTarget_adds (h : registry.graph.Realizes source config) (key : PropKey) :
    (registry.linkTarget source config key).registry.graph.Realizes source config ∧
      ∃ types props,
        registry.Adds types props (registry.linkTarget source config key).registry := by
  rcases linkTarget_cases h key with ⟨prop, -, -, hlink⟩ | ⟨-, hlink⟩
  · have hregisters := resolve_registers h prop.type.innermost
    rw [hlink]
    exact ⟨hregisters.realizes, hregisters.adds⟩
  · rw [hlink]
    exact ⟨h, [], [], .nil registry⟩

/-- If all properties before one are linked and to link that one succeeds, it is linked too. -/
theorem linkTarget_linksBefore (h : registry.graph.Realizes source config)
    (hlinks : registry.graph.LinksBefore source index)
    (hok : registry.linkTarget source config ⟨index⟩ = ⟨.ok (), after⟩) :
    after.graph.LinksBefore source (index + 1) := by
  intro key prop hlt hkey hdeclared
  rcases linkTarget_cases h ⟨index⟩ with ⟨target, htarget, -, hlink⟩ | ⟨hnone, hlink⟩
  · obtain ⟨hrealizes, ⟨types, props, hadds⟩, hfound⟩ :=
      resolve_registers h target.type.innermost
    obtain ⟨⟨typeKey, hresult⟩, rfl⟩ := Outcome.forget_eq_ok_iff.1 (hlink.symm.trans hok)
    obtain ⟨type, htype, -⟩ := hfound hresult
    -- the property was there before, so it refers to what it referred to
    have hbound : index < registry.graph.props.length := (List.getElem?_eq_some_iff.1 htarget).1
    rw [Graph.prop?, hadds.props_eq, List.getElem?_append_left (by omega)] at hkey
    by_cases hlast : key.index = index
    · obtain rfl : key = ⟨index⟩ := congrArg PropKey.mk hlast
      obtain rfl := Option.some.inj (htarget.symm.trans hkey)
      exact Option.isSome_iff_exists.2 ⟨type, htype⟩
    · obtain ⟨other, hother⟩ :=
        Option.isSome_iff_exists.1 (hlinks key prop (by omega) hkey hdeclared)
      exact Option.isSome_iff_exists.2 ⟨other, h.find?_mono hrealizes.toIndexed hadds.grows hother⟩
  · obtain rfl : registry = after := congrArg Outcome.registry (hlink.symm.trans hok)
    by_cases hlast : key.index = index
    · obtain rfl : key = ⟨index⟩ := congrArg PropKey.mk hlast
      rw [hnone prop hkey] at hdeclared
      cases hdeclared
    · exact hlinks key prop (by omega) hkey hdeclared

/-! ### Nothing to link -/

/-- Steps that succeed and change nothing do so one after the other. -/
theorem forEach_eq_of_forall {κ : Type} {step : κ → Registry → Outcome Unit} {items : List κ}
    (h : ∀ item ∈ items, step item registry = ⟨.ok (), registry⟩) :
    forEach step items registry = ⟨.ok (), registry⟩ := by
  induction items with
  | nil => rfl
  | cons item rest ih =>
    obtain ⟨hitem, hrest⟩ := List.forall_mem_cons.1 h
    rw [forEach, hitem]
    exact ih hrest

/-- Where all properties are linked, nothing is left to link. -/
theorem linkTargets_eq_of_linksAll (h : registry.graph.Realizes source config)
    (hlinks : registry.graph.LinksAll source) :
    registry.linkTargets source config = ⟨.ok (), registry⟩ := by
  refine forEach_eq_of_forall fun key _ => ?_
  rcases linkTarget_cases h key with ⟨prop, hprop, hdeclared, hlink⟩ | ⟨-, hlink⟩
  · obtain ⟨type, htype⟩ := Option.isSome_iff_exists.1 (hlinks key prop hprop hdeclared)
    rw [hlink, resolve_eq_of_find? h.toIndexed htype]
    rfl
  · exact hlink

/-- A complete registry has nothing left to register. -/
theorem Complete.linkTargets_eq (h : registry.Complete source config) :
    registry.linkTargets source config = ⟨.ok (), registry⟩ :=
  linkTargets_eq_of_linksAll h.realizes fun _ _ hprop => h.linked.registered hprop

/-! ### Sources of which all can be registered -/

/-- What the properties before an index refer to is registered, if it is declared, and all
properties are pending. -/
structure LinkedBefore (source : Source) (config : Config) (index : Nat) (registry : Registry) :
    Prop where
  realizes : registry.graph.Realizes source config
  idle : registry.inProgress = []
  pending : ∀ prop ∈ registry.graph.props, prop.resolution = .pending
  registered : ∀ {key : PropKey} {prop : Property}, key.index < index →
    registry.graph.prop? key = some prop →
    (source.declaration? prop.type.innermost).isSome →
    (registry.graph.find? prop.type.innermost).isSome

variable (hlegal : ∀ name, (source.declaration? name).isSome →
  ∃ lineage, source.HasLineage config name lineage)
include hlegal

/-- One more property can be linked, and is. -/
theorem linkTarget_linkedBefore (h : registry.LinkedBefore source config index) :
    ∃ after, registry.linkTarget source config ⟨index⟩ = ⟨.ok (), after⟩ ∧
      after.LinkedBefore source config (index + 1) ∧ registry.graph.Grows after.graph := by
  obtain ⟨after, hok⟩ : ∃ after, registry.linkTarget source config ⟨index⟩ = ⟨.ok (), after⟩ := by
    rcases linkTarget_cases h.realizes ⟨index⟩ with ⟨prop, -, hdeclared, hlink⟩ | ⟨-, hlink⟩
    · have hresult := (resolve_ok_iff h.realizes h.idle _).2 (hlegal _ hdeclared)
      exact ⟨_, hlink.trans (Outcome.forget_eq_ok_iff.2 ⟨hresult, rfl⟩)⟩
    · exact ⟨registry, hlink⟩
  obtain ⟨hrealizes, types, props, hadds⟩ := linkTarget_adds h.realizes ⟨index⟩
  have hlinks := linkTarget_linksBefore h.realizes (fun _ _ => h.registered) hok
  rw [hok] at hrealizes hadds
  refine ⟨after, hok, ⟨hrealizes, hadds.inProgress_eq.trans h.idle, fun prop hprop => ?_,
    hlinks _ _⟩, hadds.grows⟩
  rw [hadds.props_eq, List.mem_append] at hprop
  exact hprop.elim (h.pending prop) (hadds.pending prop)

/-- So are all properties in a row, those included that are added on the way. -/
theorem forEach_linkTarget_linkedBefore (count : Nat)
    (h : registry.LinkedBefore source config index) :
    ∃ after, forEach (linkTarget source config) ((List.range' index count).map PropKey.mk)
        registry = ⟨.ok (), after⟩ ∧
      after.LinkedBefore source config (index + count) ∧ registry.graph.Grows after.graph := by
  induction count generalizing registry index with
  | zero => exact ⟨registry, rfl, h, .of_fresh_eq rfl⟩
  | succ count ih =>
    obtain ⟨middle, hstep, hmiddle, hgrows⟩ := linkTarget_linkedBefore hlegal h
    obtain ⟨after, hrest, hafter, hgrows'⟩ := ih hmiddle
    rw [Nat.add_assoc, Nat.add_comm 1 count] at hafter
    refine ⟨after, ?_, hafter, hgrows.trans hgrows'⟩
    rw [List.range'_succ, List.map_cons, forEach, hstep]
    exact hrest

/-- If all declarations can be registered, what some property refers to can be linked. -/
theorem linkTargets_linked (hgraph : registry.graph.Realizes source config)
    (hidle : registry.inProgress = [])
    (hpending : ∀ prop ∈ registry.graph.props, prop.resolution = .pending) :
    ∃ after, registry.linkTargets source config = ⟨.ok (), after⟩ ∧
      after.Linked source config ∧ registry.graph.Grows after.graph := by
  have hstart : registry.LinkedBefore source config 0 :=
    ⟨hgraph, hidle, hpending, fun hlt => absurd hlt (Nat.not_lt_zero _)⟩
  obtain ⟨after, hrun, hlinked, hgrows⟩ :=
    forEach_linkTarget_linkedBefore hlegal source.memberCount hstart
  refine ⟨after, ?_, ⟨hlinked.realizes, hlinked.pending, ?_⟩, hgrows⟩
  · rw [linkTargets, List.range_eq_range']
    exact hrun
  · intro key prop hkey
    have hlt : key.index < after.graph.props.length := (List.getElem?_eq_some_iff.1 hkey).1
    have hle := hlinked.realizes.length_props_le
    exact hlinked.registered (by omega) hkey

end Registry

end Metamodel
