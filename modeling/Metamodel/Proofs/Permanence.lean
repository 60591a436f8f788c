import Metamodel.Proofs.Records

/-!
# What calls leave as it is

Whatever calls come after it, a registry keeps its types, what is declared of its properties, and
the properties that are settled or have failed, down to their records. The views of a type are among
what stays. A view may therefore be kept when it is first asked for: `Serves` is the history of a
registry together with the views that were kept on the way, and a view read from there is the one
that would be computed anew (`Serves.current`). `Reachable.leadsTo_keeps` has both.
-/

namespace Metamodel

open Relation (ReflTransGen)

variable {source : Source} {config : Config} {before after registry : Registry}

/-! ### Views that are kept -/

/-- Views that were computed once and kept, by the keys of their types. -/
structure ViewCache where
  merged : TypeKey → Option (List PropKey) := fun _ => none
  byId : TypeKey → Option (List PropKey) := fun _ => none

namespace Graph

/-- The merged view of a type as it was kept. One that was not is computed from that of the
ancestor, which may have been kept. -/
def readMerged (graph : Graph) (cache : ViewCache) (key : TypeKey) : List PropKey :=
  match cache.merged key with
  | some view => view
  | none =>
    match graph.type? key with
    | none => []
    | some type =>
      match type.superType with
      | none => type.declared
      | some ancestor =>
        if ancestor.index < key.index then
          graph.mergeLevel (graph.readMerged cache ancestor) type.declared
        else type.declared
termination_by key.index

/-- The view in the order of numbers as it was kept, or computed from the merged one. -/
def readById (graph : Graph) (cache : ViewCache) (key : TypeKey) : List PropKey :=
  match cache.byId key with
  | some view => view
  | none => (graph.readMerged cache key).mergeSort fun a b => graph.idOf a ≤ graph.idOf b

end Graph

namespace ViewCache

variable {cache : ViewCache} {graph : Graph}

/-- The merged view of a type is asked for, and kept. -/
def keepMerged (cache : ViewCache) (graph : Graph) (key : TypeKey) : ViewCache :=
  { cache with merged := Function.update cache.merged key (some (graph.readMerged cache key)) }

/-- The view in the order of numbers is asked for, and kept. -/
def keepById (cache : ViewCache) (graph : Graph) (key : TypeKey) : ViewCache :=
  { cache with byId := Function.update cache.byId key (some (graph.readById cache key)) }

/-- What is kept are views of types of a graph, and they are what the graph has now. -/
structure Current (cache : ViewCache) (graph : Graph) : Prop where
  merged : ∀ key view, cache.merged key = some view →
    ∃ type ∈ graph.types, type.key = key ∧ view = graph.mergedProps key
  byId : ∀ key view, cache.byId key = some view →
    ∃ type ∈ graph.types, type.key = key ∧ view = graph.propsById key

namespace Current

/-- A merged view is read as it would be computed. -/
theorem readMerged_eq (h : cache.Current graph) (key : TypeKey) :
    graph.readMerged cache key = graph.mergedProps key := by
  fun_induction Graph.readMerged graph cache key with
  | case1 key view hkept =>
    obtain ⟨_, -, -, hview⟩ := h.merged key view hkept
    exact hview
  | case2 key _ hkey => rw [Graph.mergedProps, hkey]
  | case3 key _ type hkey hroot => rw [Graph.mergedProps, hkey]; simp only [hroot]
  | case4 key _ type hkey ancestor hancestor hlt ih =>
    rw [Graph.mergedProps, hkey, ih]
    simp only [hancestor, if_pos hlt]
  | case5 key _ type hkey ancestor hancestor hlt =>
    rw [Graph.mergedProps, hkey]
    simp only [hancestor, if_neg hlt]

/-- So is a view in the order of numbers. -/
theorem readById_eq (h : cache.Current graph) (key : TypeKey) :
    graph.readById cache key = graph.propsById key := by
  rw [Graph.readById]
  split
  · next view hkept =>
    obtain ⟨_, -, -, hview⟩ := h.byId key view hkept
    exact hview
  · rw [h.readMerged_eq, Graph.propsById]

/-- What is kept stays current as long as the graph keeps what it says. -/
theorem mono (h : cache.Current graph) {later : Graph} (hkeeps : graph.Keeps later) :
    cache.Current later where
  merged key view hkept := by
    obtain ⟨type, htype, rfl, hview⟩ := h.merged key view hkept
    exact ⟨type, hkeeps.types_prefix.subset htype, rfl,
      hview.trans (hkeeps.mergedProps_eq type htype).symm⟩
  byId key view hkept := by
    obtain ⟨type, htype, rfl, hview⟩ := h.byId key view hkept
    exact ⟨type, hkeeps.types_prefix.subset htype, rfl,
      hview.trans (hkeeps.propsById_eq type htype).symm⟩

/-- What is kept when it is asked for is current. -/
theorem keepMerged (h : cache.Current graph) {type : TypeNode} (htype : type ∈ graph.types) :
    (cache.keepMerged graph type.key).Current graph where
  merged key view hkept := by
    by_cases hkey : key = type.key
    · subst hkey
      simp only [ViewCache.keepMerged, Function.update_self, Option.some.injEq] at hkept
      exact ⟨type, htype, rfl, hkept.symm.trans (h.readMerged_eq _)⟩
    · simp only [ViewCache.keepMerged, Function.update_of_ne hkey] at hkept
      exact h.merged key view hkept
  byId := h.byId

theorem keepById (h : cache.Current graph) {type : TypeNode} (htype : type ∈ graph.types) :
    (cache.keepById graph type.key).Current graph where
  merged := h.merged
  byId key view hkept := by
    by_cases hkey : key = type.key
    · subst hkey
      simp only [ViewCache.keepById, Function.update_self, Option.some.injEq] at hkept
      exact ⟨type, htype, rfl, hkept.symm.trans (h.readById_eq _)⟩
    · simp only [ViewCache.keepById, Function.update_of_ne hkey] at hkept
      exact h.byId key view hkept

end Current

end ViewCache

/-- A registry with the views that were kept on the way to it. Any view of any type may be asked for
at any time, in the middle of a registration too. -/
inductive Serves (source : Source) (config : Config) : Registry → ViewCache → Prop where
  | start : Serves source config {} {}
  | alters {before after : Registry} {cache : ViewCache} :
    Serves source config before cache →
    Registry.Alters source config before after →
    Serves source config after cache
  | merged {registry : Registry} {cache : ViewCache} {type : TypeNode} :
    Serves source config registry cache →
    type ∈ registry.graph.types →
    Serves source config registry (cache.keepMerged registry.graph type.key)
  | byId {registry : Registry} {cache : ViewCache} {type : TypeNode} :
    Serves source config registry cache →
    type ∈ registry.graph.types →
    Serves source config registry (cache.keepById registry.graph type.key)

namespace Serves

variable {cache : ViewCache}

/-- Whatever was kept at whichever time is current. -/
theorem current (h : Serves source config registry cache) :
    registry.graph.Realizes source config ∧ cache.Current registry.graph := by
  induction h with
  | start => exact ⟨.empty, nofun, nofun⟩
  | alters _ halters ih =>
    obtain ⟨hrealizes, hcurrent⟩ := ih
    obtain ⟨hlater, hcontinues⟩ := halters.continues hrealizes
    exact ⟨hlater, hcurrent.mono (hrealizes.keeps hcontinues)⟩
  | merged _ htype ih => exact ⟨ih.1, ih.2.keepMerged htype⟩
  | byId _ htype ih => exact ⟨ih.1, ih.2.keepById htype⟩

/-- No call gives up what was kept. -/
theorem leadsTo (h : Serves source config before cache)
    (hleads : LeadsTo source config before after) : Serves source config after cache := by
  have halters := hleads.alters h.current.1
  clear hleads
  induction halters with
  | refl => exact h
  | tail _ hlast ih => exact .alters ih hlast

end Serves

/-- Whatever calls come after it, failing ones included, a reachable registry keeps its types, what
is declared of its properties, the properties that are settled or have failed, and all views. To
step such a property again does nothing, and one that is pending links to nothing yet. So it is with
the records of the properties, whichever way they came to be written and whatever is written to them
from then on. Views may be kept, at whichever time they are first asked for: no call has to give
them up, and they are read as they would be computed. -/
theorem Reachable.leadsTo_keeps (h : Reachable source config before)
    (hleads : LeadsTo source config before after) :
    before.graph.Keeps after.graph ∧
    (∀ key prop, before.graph.prop? key = some prop → prop.resolution ≠ .pending →
      ∀ round, before.resolveProperty round key = ⟨.ok false, before⟩) ∧
    (∀ prop ∈ before.graph.props, prop.resolution.isPending = true →
      prop.resolution.target? = none ∧ prop.resolution.dependencies = []) ∧
    (∀ records, Written source config before records →
      (∀ record ∈ records, record.state = .pending →
        record.target = none ∧ record.dependencies = []) ∧
      (∃ later, ReflTransGen (Registry.Writes source config) (before, records) (after, later)) ∧
      ∀ later, ReflTransGen (Registry.Writes source config) (before, records) (after, later) →
        PropertyRecord.Keeps records later) ∧
    ∀ cache, Serves source config before cache →
      Serves source config after cache ∧
      ∀ type ∈ before.graph.types,
        after.graph.readMerged cache type.key = before.graph.mergedProps type.key ∧
        after.graph.readById cache type.key = before.graph.propsById type.key := by
  have hrealizes := h.sound.realizes
  have hcontinues := (Registry.continues_of_alters (hleads.alters hrealizes) hrealizes).2
  have hkeeps := hrealizes.keeps hcontinues
  refine ⟨hkeeps, ?_, ?_, ?_, ?_⟩
  · intro key prop hkey hne round
    exact Registry.resolveProperty_eq_of_ne_pending hkey hne round
  · intro prop _ hpending
    cases hresolution : prop.resolution with
    | pending => exact ⟨rfl, rfl⟩
    | resolved _ _ _ | failed _ =>
      rw [hresolution] at hpending
      cases hpending
  · intro records hwritten
    refine ⟨fun record hrecord hpending => ?_,
      Registry.exists_writes_of_alters (hleads.alters hrealizes) records,
      fun later hwrites => Registry.keeps_of_writes hwrites hwritten.records_eq⟩
    exact (hwritten.isTidy record hrecord).unsettled (by rw [hpending]; nofun)
  · intro cache hserves
    have hlater := hserves.leadsTo hleads
    refine ⟨hlater, fun type htype => ?_⟩
    rw [hlater.current.2.readMerged_eq, hlater.current.2.readById_eq]
    exact ⟨hkeeps.mergedProps_eq type htype, hkeeps.propsById_eq type htype⟩

theorem Reachable.leadsTo_keeps_orders :
    ∃ before after, Reachable orders {} before ∧ LeadsTo orders {} before after ∧
      before.graph.props.map (·.resolution.name) = ["Resolved", "Pending", "Failed"] ∧
      after.graph.types.map (·.qualifiedName) = ["Order", "Customer"] ∧
      after.graph.props.map (·.resolution.name) =
        ["Resolved", "Failed", "Failed", "Resolved", "Resolved"] ∧
      before.graph.Keeps after.graph := by
  -- there is no customer to link to when the order is stepped, so that its title fails as well
  let before := ((Command.resolveType ⟨0⟩ 1).run orders {}
    ((Command.resolve "Order").run orders {} {}).registry).registry
  have hreachable : Reachable orders {} before :=
    .step (.resolveType ⟨0⟩ 1) (.step (.resolve "Order") .refl)
  have hleads : LeadsTo orders {} before _ := .step (.resolveType ⟨1⟩ 2) <|
    .step (.resolveProperty ⟨1⟩ 2) <| .step .linkTargets .refl
  exact ⟨_, _, hreachable, hleads, by decide +kernel, by decide +kernel, by decide +kernel,
    (Reachable.leadsTo_keeps hreachable hleads).1⟩

end Metamodel
