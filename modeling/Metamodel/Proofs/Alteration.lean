import Metamodel.Proofs.WellFormed

/-!
# What happens within a call

A call adds types at the end of a graph and settles what is pending, and that is all it does, so the
graph goes on where it stopped (`Graph.Continues`). `Registry.Alters` lists what happens to a
registry on the way, registrations taken apart into what is done for the type and for its ancestors.
Types and whatever a declaration says of a property stay as they are, and so does a property once
it is settled or has failed. The views of a type are among what stays (`Graph.Keeps`).
-/

namespace Metamodel

open Relation (ReflTransGen)

namespace Graph

variable {graph before after first second third : Graph} {type : TypeNode} {lineage : Lineage}
  {key : PropKey} {prop : Property}

/-! ### Views while a graph grows -/

@[simp]
theorem idOf_fresh (graph : Graph) (key : PropKey) : graph.fresh.idOf key = graph.idOf key := by
  rw [idOf, idOf, prop?_fresh]
  cases graph.prop? key <;> rfl

namespace Grows

/-- What a graph has it goes on to have, but for its resolution. -/
theorem prop?_fresh_eq (h : before.Grows after) (hkey : before.prop? key = some prop) :
    after.fresh.prop? key = before.fresh.prop? key := by
  have hfresh : before.fresh.prop? key = some prop.fresh := by
    rw [Graph.prop?_fresh, hkey, Option.map_some]
  rw [hfresh, h.prop?_fresh hfresh]

/-- Nothing changes of a property but its resolution. -/
theorem exists_resolution (h : before.Grows after) (hkey : before.prop? key = some prop) :
    ∃ resolution, after.prop? key = some { prop with resolution } := by
  have hfresh := h.prop?_fresh_eq hkey
  rw [Graph.prop?_fresh, Graph.prop?_fresh, hkey, Option.map_some, Option.map_eq_some_iff] at hfresh
  obtain ⟨later, hlater, hsame⟩ := hfresh
  refine ⟨later.resolution, hlater.trans (congrArg some ?_)⟩
  calc later
    _ = { later.fresh with resolution := later.resolution } := rfl
    _ = { prop.fresh with resolution := later.resolution } := by rw [hsame]

theorem isId_eq (h : before.Grows after) (hkey : before.prop? key = some prop) :
    after.isId key = before.isId key := by
  rw [← isId_fresh, ← before.isId_fresh, isId, isId, h.prop?_fresh_eq hkey]

theorem idOf_eq (h : before.Grows after) (hkey : before.prop? key = some prop) :
    after.idOf key = before.idOf key := by
  rw [← idOf_fresh, ← before.idOf_fresh, idOf, idOf, h.prop?_fresh_eq hkey]

/-- What is in the graph is sorted as before. -/
theorem mergeLevel_eq (h : before.Grows after) {inherited own : List PropKey}
    (hkeys : ∀ key ∈ inherited ++ own, ∃ prop, before.prop? key = some prop) :
    after.mergeLevel inherited own = before.mergeLevel inherited own := by
  have hid : ∀ key ∈ inherited ++ own, after.isId key = before.isId key := by
    intro key hkey
    obtain ⟨prop, hprop⟩ := hkeys key hkey
    exact h.isId_eq hprop
  have hnot : ∀ key ∈ inherited ++ own, (!after.isId key) = !before.isId key := by
    intro key hkey
    rw [hid key hkey]
  rw [Graph.mergeLevel_eq, Graph.mergeLevel_eq, List.filter_congr hid, List.filter_congr hnot]

end Grows

/-- The merged view of a placed type stays as it is while the graph grows. -/
theorem Places.mergedProps_mono (h : before.Places type lineage) (hgrows : before.Grows after) :
    after.mergedProps type.key = before.mergedProps type.key := by
  induction h with
  | root hbuilds hroot =>
    rw [hbuilds.mergedProps_root hroot, (hbuilds.mono hgrows).mergedProps_root hroot]
  | child hbuilds hparent hlt hplaces ih =>
    rw [hbuilds.mergedProps_child hparent hlt, (hbuilds.mono hgrows).mergedProps_child hparent hlt,
      ih]
    refine hgrows.mergeLevel_eq fun key hkey => ?_
    rcases List.mem_append.1 hkey with hinherited | hown
    · exact hplaces.exists_of_view (.inl hinherited)
    · obtain ⟨prop, hprop, -⟩ := hbuilds.exists_prop? hown
      exact ⟨prop, hprop⟩

/-- So does the view in the order of numbers. -/
theorem Places.propsById_mono (h : before.Places type lineage) (hgrows : before.Grows after) :
    after.propsById type.key = before.propsById type.key := by
  have hcompare : ∀ a ∈ before.mergedProps type.key, ∀ b ∈ before.mergedProps type.key,
      decide (after.idOf a ≤ after.idOf b) = decide (before.idOf a ≤ before.idOf b) := by
    intro a ha b hb
    obtain ⟨prop, hprop⟩ := h.exists_of_view (.inl ha)
    obtain ⟨prop', hprop'⟩ := h.exists_of_view (.inl hb)
    rw [hgrows.idOf_eq hprop, hgrows.idOf_eq hprop']
  have hsorted := List.map_mergeSort (f := id)
    (r := fun a b => decide (after.idOf a ≤ after.idOf b))
    (s := fun a b => decide (before.idOf a ≤ before.idOf b)) hcompare
  rw [propsById, propsById, h.mergedProps_mono hgrows]
  simpa only [List.map_id] using hsorted

/-! ### What stays -/

/-- A graph goes on where another stops: it grows, and whatever is no longer pending stays as it
is. -/
structure Continues (before after : Graph) : Prop extends Grows before after where
  kept : ∀ {key : PropKey} {prop : Property}, before.prop? key = some prop →
    prop.resolution ≠ .pending → after.prop? key = some prop

namespace Continues

theorem refl (graph : Graph) : graph.Continues graph :=
  ⟨.of_fresh_eq rfl, fun hkey _ => hkey⟩

theorem trans (h : first.Continues second) (h' : second.Continues third) :
    first.Continues third where
  toGrows := h.toGrows.trans h'.toGrows
  kept hkey hne := h'.kept (h.kept hkey hne) hne

/-- Resolution goes on where it stopped. -/
theorem of_advances (h : before.Advances after) : before.Continues after :=
  ⟨.of_fresh_eq h.fresh_eq, h.kept⟩

end Continues

/-- What one graph says is kept by another: types, what is declared of properties, whatever is
settled or has failed, and the views of all types. -/
structure Keeps (before after : Graph) : Prop where
  types_prefix : before.types <+: after.types
  /-- Nothing changes of a property but its resolution. -/
  prop?_eq : ∀ key prop, before.prop? key = some prop →
    ∃ resolution, after.prop? key = some { prop with resolution }
  /-- Once it is no longer pending, nothing changes at all. -/
  settled_eq : ∀ key prop, before.prop? key = some prop → prop.resolution ≠ .pending →
    after.prop? key = some prop
  mergedProps_eq : ∀ type ∈ before.types,
    after.mergedProps type.key = before.mergedProps type.key
  propsById_eq : ∀ type ∈ before.types, after.propsById type.key = before.propsById type.key

variable {source : Source} {config : Config}

/-- In a graph of placed types nothing is lost when it is continued. -/
theorem Realizes.keeps (h : before.Realizes source config) (hcontinues : before.Continues after) :
    before.Keeps after where
  types_prefix := hcontinues.types
  prop?_eq key prop hkey := hcontinues.exists_resolution hkey
  settled_eq key prop hkey hne := hcontinues.kept hkey hne
  mergedProps_eq type htype := by
    obtain ⟨lineage, -, hplaces⟩ := h.placed type htype
    exact hplaces.mergedProps_mono hcontinues.toGrows
  propsById_eq type htype := by
    obtain ⟨lineage, -, hplaces⟩ := h.placed type htype
    exact hplaces.propsById_mono hcontinues.toGrows

end Graph

namespace Registry

variable {source : Source} {config : Config} {before after : Registry}
  {types : List TypeNode} {props : List Property}

/-! ### What happens within a call -/

/-- One thing that happens to a registry within a call. A registration is more than one: the
construction of a name is entered, its ancestor is registered meanwhile, and then the type itself is
constructed. -/
inductive Alters (source : Source) (config : Config) (before : Registry) : Registry → Prop where
  | enters (name : String) : Alters source config before (before.enter name)
  | leaves : Alters source config before before.leave
  | constructs {name : String} {declaration : Declaration} {header : Header}
      {ancestor : Option TypeKey} :
    before.graph.keyOf? name = none →
    name ∉ before.inProgress →
    source.declaration? name = some declaration →
    Header.ofDeclaration source declaration = .ok header →
    header.ancestor.map before.graph.keyOf? = ancestor.map some →
    Alters source config before
      (before.construct source config declaration header ancestor).registry
  | steps (round : Nat) (key : PropKey) :
    Alters source config before (resolveProperty round key before).registry
  | reports (round pending : Nat) :
    Alters source config before (before.record (.roundFinished round pending))
  | givesUp {key : PropKey} :
    key ∈ before.graph.pending →
    Alters source config before (before.setResolution key (.failed none))

/-- Registration continues the graph. -/
theorem Adds.continues (h : before.Adds types props after) :
    before.graph.Continues after.graph where
  types := h.grows.types
  props := h.grows.props
  kept := by
    intro key prop hkey _
    obtain ⟨hlt, -⟩ := List.getElem?_eq_some_iff.1 hkey
    rw [Graph.prop?, h.props_eq, List.getElem?_append_left hlt]
    exact hkey

/-- A type under its registered ancestor is constructed in a graph of placed types. -/
theorem parent_of_keyOf? {registry : Registry} (h : registry.graph.Realizes source config)
    {header : Header} {ancestor : Option TypeKey}
    (hancestor : header.ancestor.map registry.graph.keyOf? = ancestor.map some) :
    ∃ above, registry.graph.Parent source config header ancestor above := by
  cases hheader : header.ancestor with
  | none =>
    rw [hheader, Option.map_none, eq_comm, Option.map_eq_none_iff] at hancestor
    subst hancestor
    exact ⟨[], .root hheader⟩
  | some name =>
    rw [hheader, Option.map_some, eq_comm, Option.map_eq_some_iff] at hancestor
    obtain ⟨key, rfl, hkey⟩ := hancestor
    obtain ⟨parent, hparent, rfl⟩ := h.keyOf?_eq_some_iff.1 hkey.symm
    obtain rfl := h.key hparent
    obtain ⟨above, habove, hplaces⟩ := h.placed parent (List.mem_of_getElem? hparent)
    exact ⟨above, .under hheader habove hplaces⟩

/-- Whatever happens within a call leaves types in their places and continues the graph. -/
theorem Alters.continues (halters : Alters source config before after)
    (h : before.graph.Realizes source config) :
    after.graph.Realizes source config ∧ before.graph.Continues after.graph := by
  have of_advances {graph : Graph} (hadvances : before.graph.Advances graph) :
      graph.Realizes source config ∧ before.graph.Continues graph :=
    ⟨h.of_fresh_eq hadvances.fresh_eq, .of_advances hadvances⟩
  cases halters with
  | enters | leaves | reports => exact ⟨h, .refl _⟩
  | constructs hnew hidle hdeclared hheader hancestor =>
    obtain ⟨above, hparent⟩ := parent_of_keyOf? h hancestor
    obtain ⟨hrealizes, ⟨types, props, hadds⟩, -⟩ :=
      construct_registers h hnew hidle hdeclared hheader hparent
    exact ⟨hrealizes, hadds.continues⟩
  | steps round key => exact of_advances (resolveProperty_step round key before).resolves.advances
  | givesUp hkey => exact of_advances (.setResolution hkey _)

/-- What happens in the registration of a name. -/
theorem resolve_alters {registry : Registry} (h : registry.graph.Realizes source config)
    (name : String) :
    ReflTransGen (Alters source config) registry
      (registry.resolve source config name).registry := by
  fun_induction Registry.resolve source config name registry with
  | case1 | case2 | case3 | case4 => exact .refl
  | case5 name registry hnew hidle declaration hdeclared header hheader hroot =>
    exact .single (.constructs hnew hidle hdeclared hheader (by rw [hroot]; rfl))
  | case6 name registry hnew hidle declaration hdeclared header hheader ancestor hancestor outcome
      violation hresult ih => exact .head (.enters name) ((ih h).tail .leaves)
  | case7 name registry hnew hidle declaration hdeclared header hheader ancestor hancestor outcome
      key hresult ih =>
    have henter : (registry.enter name).graph.Realizes source config := h
    obtain ⟨hrealizes, ⟨types, props, hadds⟩, hfound⟩ := resolve_registers henter ancestor
    obtain ⟨parent, hparent, rfl⟩ := hfound hresult
    have hnew' : outcome.registry.graph.keyOf? name = none :=
      hadds.keyOf?_eq_none hnew (by simp [enter])
    have hidle' : name ∉ outcome.registry.leave.inProgress := hadds.of_enter.inProgress_eq ▸ hidle
    have hancestor' : header.ancestor.map outcome.registry.graph.keyOf? =
        (some parent.key).map some := by
      rw [hancestor, Option.map_some, hrealizes.keyOf?_eq, hparent]
      rfl
    refine .head (.enters name) (((ih h).tail .leaves).tail ?_)
    exact .constructs hnew' hidle' hdeclared hheader hancestor'

/-- What happens in a move. -/
theorem Moves.alters (hmove : Moves source config before after)
    (h : before.graph.Realizes source config) :
    ReflTransGen (Alters source config) before after := by
  cases hmove with
  | registers name => exact resolve_alters h name
  | steps round key => exact .single (.steps round key)
  | reports round pending => exact .single (.reports round pending)
  | givesUp hkey => exact .single (.givesUp hkey)

/-- Whatever happens one after the other continues the graph as well. -/
theorem continues_of_alters (halters : ReflTransGen (Alters source config) before after)
    (h : before.graph.Realizes source config) :
    after.graph.Realizes source config ∧ before.graph.Continues after.graph := by
  induction halters with
  | refl => exact ⟨h, .refl _⟩
  | tail _ hlast ih =>
    obtain ⟨hrealizes, hcontinues⟩ := ih
    obtain ⟨hlater, hmore⟩ := hlast.continues hrealizes
    exact ⟨hlater, hcontinues.trans hmore⟩

/-- What happens in moves one after the other. -/
theorem alters_of_moves (hmoves : ReflTransGen (Moves source config) before after)
    (h : before.graph.Realizes source config) :
    ReflTransGen (Alters source config) before after := by
  induction hmoves with
  | refl => exact .refl
  | tail _ hmove ih => exact ih.trans (hmove.alters (continues_of_alters ih h).1)

/-- So moves continue the graph. -/
theorem continues_of_moves (hmoves : ReflTransGen (Moves source config) before after)
    (h : before.graph.Realizes source config) :
    after.graph.Realizes source config ∧ before.graph.Continues after.graph :=
  continues_of_alters (alters_of_moves hmoves h) h

/-- The step of a property that is no longer pending does nothing and says no. -/
theorem resolveProperty_eq_of_ne_pending {registry : Registry} {key : PropKey} {prop : Property}
    (hkey : registry.graph.prop? key = some prop) (hne : prop.resolution ≠ .pending)
    (round : Nat) : registry.resolveProperty round key = ⟨.ok false, registry⟩ := by
  have hstep := resolveProperty_step round key registry
  generalize registry.resolveProperty round key = outcome at hstep ⊢
  cases hstep with
  | idle _ => rfl
  | waits hother hpending _ | settles hother hpending _ | fails hother hpending _ =>
    obtain rfl := Option.some.inj (hkey.symm.trans hother)
    exact absurd hpending hne

end Registry

variable {source : Source} {config : Config} {before after registry : Registry}

/-- What happens in a sequence of calls. -/
theorem LeadsTo.alters (h : LeadsTo source config before after)
    (hbefore : before.graph.Realizes source config) :
    ReflTransGen (Registry.Alters source config) before after :=
  Registry.alters_of_moves h.moves hbefore

end Metamodel
