import Metamodel.Compilation
import Metamodel.Proofs.Linking
import Metamodel.Proofs.Resolution.Rounds

/-!
# What a compilation settles

Once every declaration is registered, a compilation comes down to its rounds. It succeeds exactly
when everything has something to settle to and no expression waits for itself, directly or
through others (`compile_ok_iff_acyclic`), and then everything is settled to what it declares. If
only the waiting is at fault, the expressions that wait for ever are reported, and no others
(`compile_error_of_cycle`).
-/

namespace Metamodel

open Relation (ReflTransGen TransGen)

namespace Graph

variable {graph : Graph}

/-- Where what can be reached is finite and without cycles, no chain goes on for ever. -/
theorem acc_of_acyclic {α : Type} [DecidableEq α] {r : α → α → Prop} (reached : List α) {a : α}
    (h : ∀ b, ReflTransGen r a b → b ∈ reached ∧ ¬ TransGen r b b) :
    Acc (fun next previous => r previous next) a := by
  induction hlength : reached.length generalizing reached a with
  | zero =>
    obtain rfl := List.length_eq_zero_iff.1 hlength
    simpa using (h a .refl).1
  | succ n ih =>
    obtain ⟨hmem, hacyclic⟩ := h a .refl
    refine .intro a fun b hab => ih (reached.erase a) ?_ ?_
    · -- nothing that can be reached from a successor leads back
      intro c hbc
      obtain ⟨hc, hcycle⟩ := h c (.head hab hbc)
      refine ⟨(List.mem_erase_of_ne ?_).2 hc, hcycle⟩
      rintro rfl
      exact hacyclic (.head' hab hbc)
    · rw [List.length_erase_of_mem hmem]
      omega

/-- What waits is an expression. -/
theorem Awaits.isExpression {waiting awaited : PropKey} (h : graph.Awaits waiting awaited) :
    ∃ prop, graph.prop? waiting = some prop ∧ prop.kind.isExpression = true := by
  obtain ⟨prop, -, path, -, hprop, hpath, -⟩ := h
  refine ⟨prop, hprop, ?_⟩
  cases hkind : prop.kind <;> simp_all [PropertyKind.paths, PropertyKind.isExpression]

/-- Where there is no property, nothing is waited for. -/
theorem grounded_of_prop?_eq_none {key : PropKey} (h : graph.prop? key = none) :
    graph.Grounded key := by
  refine .intro key fun awaited hawaits => ?_
  obtain ⟨prop, hprop, -⟩ := hawaits.isExpression
  rw [h] at hprop
  cases hprop

/-- What is waited for is a property of the graph. -/
theorem Awaits.mem_propKeys {waiting awaited : PropKey} (h : graph.Awaits waiting awaited) :
    awaited ∈ graph.propKeys := by
  obtain ⟨-, other, -, -, -, -, -, -, hother, -⟩ := h
  have hlt := (List.getElem?_eq_some_iff.1 hother).1
  exact List.mem_map.2 ⟨awaited.index, List.mem_range.2 hlt, rfl⟩

/-- A property is grounded exactly when waiting leads from it to no cycle. -/
theorem grounded_iff {key : PropKey} :
    graph.Grounded key ↔
      ∀ other, ReflTransGen graph.Awaits key other → ¬ TransGen graph.Awaits other other := by
  constructor
  · intro hgrounded
    induction hgrounded with
    | intro key _ ih =>
      intro other hreach hcycle
      rcases ReflTransGen.cases_head hreach with rfl | ⟨next, hnext, hrest⟩
      · obtain ⟨next, hnext, hback⟩ := TransGen.head'_iff.1 hcycle
        exact ih next hnext key hback hcycle
      · exact ih next hnext other hrest hcycle
  · intro hacyclic
    refine acc_of_acyclic (key :: graph.propKeys) fun other hreach => ⟨?_, hacyclic other hreach⟩
    rcases ReflTransGen.cases_tail hreach with rfl | ⟨_, _, hlast⟩
    · exact List.mem_cons_self
    · exact List.mem_cons_of_mem _ hlast.mem_propKeys

/-- Everything is grounded exactly when waiting has no cycle. -/
theorem forall_grounded_iff :
    (∀ key, graph.Grounded key) ↔ ∀ key, ¬ TransGen graph.Awaits key key := by
  simp only [grounded_iff]
  constructor
  · intro h key
    exact h key key .refl
  · intro h key other _
    exact h other

/-- What is not grounded is an expression from which waiting leads to a cycle. -/
theorem not_grounded_iff {key : PropKey} :
    ¬ graph.Grounded key ↔
      (∃ prop, graph.prop? key = some prop ∧ prop.kind.isExpression = true) ∧
        ∃ cyclic, ReflTransGen graph.Awaits key cyclic ∧ TransGen graph.Awaits cyclic cyclic := by
  rw [grounded_iff]
  simp only [not_forall, not_not, exists_prop]
  constructor
  · rintro ⟨cyclic, hreach, hcycle⟩
    obtain ⟨next, hnext, -⟩ := TransGen.head'_iff.1 (TransGen.trans_right hreach hcycle)
    exact ⟨hnext.isExpression, cyclic, hreach, hcycle⟩
  · rintro ⟨-, hcyclic⟩
    exact hcyclic

/-- What is not grounded is pending. -/
theorem Healthy.mem_pending_of_not_grounded (h : graph.Healthy) {key : PropKey}
    (hkey : ¬ graph.Grounded key) : key ∈ graph.pending := by
  obtain ⟨⟨prop, hprop, -⟩, -⟩ := not_grounded_iff.1 hkey
  rcases h.settled hprop with hpending | ⟨_, _, _, -, -, hgrounded⟩
  · exact mem_pending.2 ⟨prop, hprop, hpending⟩
  · exact absurd hgrounded hkey

/-- Where nothing is pending, everything is settled to what it declares and is grounded. -/
theorem Healthy.resolved (h : graph.Healthy) (hpending : graph.pending = []) {key : PropKey}
    {prop : Property} (hkey : graph.prop? key = some prop) :
    ∃ round target dependencies, prop.resolution = .resolved round target dependencies ∧
      graph.Settles prop ⟨target, dependencies⟩ ∧ graph.Grounded key := by
  refine (h.settled hkey).resolve_left fun hpend => ?_
  have hmem := mem_pending.2 ⟨prop, hkey, hpend⟩
  simp [hpending] at hmem

end Graph

variable {source : Source} {config : Config}

/-- The graph of a linked registry is regular. -/
theorem Registry.Linked.regular {registry : Registry} (h : registry.Linked source config) :
    registry.graph.Regular where
  toIndexed := h.realizes.toIndexed
  declared := h.realizes.declared
  reference := h.reference_eq
  names_nodup := by
    intro owner
    cases howner : registry.graph.type? owner with
    | none =>
      rw [Graph.mergedProps, howner]
      exact List.nodup_nil
    | some type =>
      obtain ⟨lineage, hlineage, hplaces⟩ := h.realizes.placed type (List.mem_of_getElem? howner)
      rw [← h.realizes.key howner]
      exact hplaces.names_nodup hlineage

/-- Before any round the graph of a linked registry is healthy. -/
theorem Registry.Linked.healthy {registry : Registry} (h : registry.Linked source config) :
    registry.graph.Healthy where
  regular := h.regular
  settled hkey := .inl (h.pending _ (List.mem_of_getElem? hkey))

namespace Registry.Complete

variable {registry : Registry}

/-- So is that of a complete registry. -/
theorem healthy (h : registry.Complete source config) : registry.graph.Healthy :=
  h.linked.healthy

/-- Before any round everything is pending. -/
theorem pending_eq (h : registry.Complete source config) :
    registry.graph.pending = registry.graph.propKeys := by
  refine List.filter_eq_self.2 fun key hkey => ?_
  obtain ⟨index, hindex, rfl⟩ := List.mem_map.1 hkey
  have hlt := List.mem_range.1 hindex
  have hprop : registry.graph.prop? ⟨index⟩ = some registry.graph.props[index] :=
    List.getElem?_eq_getElem hlt
  simp [hprop, h.pending _ (List.getElem_mem hlt), Resolution.isPending]

/-- Before any round no event is that of a finished round. -/
theorem finishedRounds_eq (h : registry.Complete source config) :
    registry.finishedRounds = [] := by
  rw [finishedRounds, h.events_eq, List.filterMap_map]
  exact List.filterMap_eq_nil_iff.2 fun _ _ => rfl

/-- The graph of a complete registry is its own fresh graph. -/
theorem fresh_eq (h : registry.Complete source config) : registry.graph.fresh = registry.graph := by
  have hprops : registry.graph.props.map Property.fresh = registry.graph.props.map id := by
    refine List.map_congr_left fun prop hprop => ?_
    rw [Property.fresh, ← h.pending prop hprop]
    rfl
  rw [Graph.fresh, hprops, List.map_id]

end Registry.Complete

/-- How a report names the properties that no round has settled. -/
theorem Violation.diagnostic_unsettled (owner name : String) (bound : Nat)
    (pending : List PropLabel) :
    (Violation.ofMember owner name (.unsettled bound pending)).diagnostic = {
      cls := .resolutionTimeout
      subject := ⟨owner, some name⟩
      message :=
        s!"property resolution did not settle within {bound} rounds, still pending: " ++
          ", ".intercalate (pending.map PropLabel.text) ++ "; their dependencies are circular" } :=
  rfl

/-- A compilation succeeds only if every declaration can be registered. -/
theorem exists_registered_of_compile {model : Model}
    (h : compile source config = .ok model) :
    ∃ registry, Registry.resolveAll source config {} = ⟨.ok (), registry⟩ := by
  rw [compile, Compilation.run, Except.map_eq_ok_iff] at h
  obtain ⟨rounds, hrounds, -⟩ := h
  rw [Compilation.settle] at hrounds
  cases houtcome : Registry.resolveAll source config {} with
  | mk result registry =>
    cases result with
    | error violation => simp [houtcome] at hrounds
    | ok done => exact ⟨registry, rfl⟩

section Compile

variable {registry : Registry}
  (registered : Registry.resolveAll source config {} = ⟨.ok (), registry⟩)
include registered

/-- Once every declaration is registered, what remains of a compilation are its rounds. -/
theorem Compilation.settle_eq : Compilation.settle source config = registry.resolveRounds := by
  simp only [settle, registered, (Registry.resolveAll_complete registered).linkTargets_eq]

/-- A compilation succeeds exactly when its rounds do, with the graph that they leave. -/
theorem compile_eq_ok_iff {model : Model} :
    compile source config = .ok model ↔
      registry.resolveRounds.result = .ok model.rounds ∧
        registry.resolveRounds.registry.graph = model.graph := by
  rw [compile, Compilation.run, Compilation.settle_eq registered, Except.map_eq_ok_iff]
  constructor
  · rintro ⟨rounds, hrounds, rfl⟩
    exact ⟨hrounds, rfl⟩
  · rintro ⟨hrounds, hgraph⟩
    exact ⟨model.rounds, hrounds, by rw [hgraph]⟩

/-- Where the rounds fail, the compilation does, and reports it last. -/
theorem Compilation.run_of_error {violation : Violation} {after : Registry}
    (h : registry.resolveRounds = ⟨.error violation, after⟩) :
    Compilation.run source config =
      ⟨.error violation, after.events ++
        [.compileFailed violation.diagnostic.cls violation.diagnostic.text]⟩ := by
  simp only [run, settle_eq registered, h]
  rfl

/-- A compiled graph is what was registered, with everything settled. -/
theorem compile_settled {model : Model} (h : compile source config = .ok model) :
    registry.graph.fresh = model.graph.fresh ∧ model.graph.Healthy ∧
      model.graph.pending = [] := by
  have hcomplete := Registry.resolveAll_complete registered
  obtain ⟨hrounds, hgraph⟩ := (compile_eq_ok_iff registered).1 h
  have houtcome : registry.resolveRounds =
      ⟨.ok model.rounds, registry.resolveRounds.registry⟩ := by
    rw [← hrounds]
  obtain ⟨hproceeds, hpending⟩ :=
    Registry.resolveRounds_ok hcomplete.healthy.regular.declared houtcome
  rw [← hgraph]
  exact ⟨(Graph.advances_of_proceeds hproceeds).fresh_eq,
    Graph.healthy_of_proceeds hproceeds hcomplete.healthy, hpending⟩

/-- A compilation succeeds exactly when everything has something to settle to and is grounded. -/
theorem exists_compile_ok_iff :
    (∃ model, compile source config = .ok model) ↔
      registry.graph.Settleable ∧
        ∀ key, registry.graph.Grounded key := by
  have hcomplete := Registry.resolveAll_complete registered
  constructor
  · rintro ⟨model, hmodel⟩
    obtain ⟨hfresh, hhealthy, hpending⟩ := compile_settled registered hmodel
    constructor
    · refine Graph.Settleable.congr hfresh.symm fun prop hprop => ?_
      obtain ⟨key, hkey⟩ := Graph.exists_prop?_eq_some hprop
      obtain ⟨round, target, dependencies, -, hsettles, -⟩ := hhealthy.resolved hpending hkey
      exact ⟨_, hsettles⟩
    · refine fun key => Graph.Grounded.congr hfresh.symm ?_
      cases hkey : model.graph.prop? key with
      | none => exact Graph.grounded_of_prop?_eq_none hkey
      | some prop =>
        obtain ⟨_, _, _, -, -, hgrounded⟩ := hhealthy.resolved hpending hkey
        exact hgrounded
  · rintro ⟨hall, hgrounded⟩
    obtain ⟨rounds, last, houtcome⟩ :=
      Registry.resolveRounds_exists_ok hcomplete.healthy hall hgrounded
    refine ⟨⟨last.graph, rounds⟩, (compile_eq_ok_iff registered).2 ?_⟩
    rw [houtcome]
    exact ⟨rfl, rfl⟩

end Compile

/-- Once every declaration is registered, a compilation succeeds exactly when each association
links to an entity, each dependency can be followed and no expression waits for itself, directly
or through others. It then changes nothing but the resolutions, and each property is settled: to
its link, and to its dependencies in the order in which they are declared, each of them with the
properties that its segments name. -/
theorem compile_ok_iff_acyclic {registry : Registry}
    (registered : Registry.resolveAll source config {} = ⟨.ok (), registry⟩) :
    ((∃ model, compile source config = .ok model) ↔
      registry.graph.AssociationsReachEntities ∧
        registry.graph.PathsNavigable ∧
        ∀ key, ¬ TransGen registry.graph.Awaits key key) ∧
    ∀ model, compile source config = .ok model →
      model.graph.fresh = registry.graph ∧
      ∀ key prop, model.graph.prop? key = some prop → ∃ round dependencies,
        prop.resolution =
          .resolved round (registry.graph.link? prop) dependencies ∧
        List.Forall₂ (registry.graph.Follows prop.declaringType)
          prop.kind.paths dependencies := by
  constructor
  · rw [exists_compile_ok_iff registered, Graph.settleable_iff, Graph.forall_grounded_iff,
      and_assoc]
  · intro model hmodel
    obtain ⟨hfresh, hhealthy, hpending⟩ := compile_settled registered hmodel
    have hcomplete := Registry.resolveAll_complete registered
    refine ⟨hfresh.symm.trans hcomplete.fresh_eq, fun key prop hkey => ?_⟩
    obtain ⟨round, target, dependencies, hresolved, hsettles, -⟩ :=
      hhealthy.resolved hpending hkey
    have hsettles' := Graph.Settles.congr hfresh.symm rfl hsettles
    refine ⟨round, dependencies, ?_, hsettles'.dependencies⟩
    rw [hresolved, ← hsettles'.target]

/-- Orders of customers, with a title that is computed from the customer's name. -/
def orders : Source where
  declarations := {
    toList := [
      { simpleName := "Order"
        tags := [.entity none]
        members := [
          { name := "id", type := .named "int", tags := [.id] },
          { name := "customer", type := .named "Customer" },
          { name := "title", type := .named "string", hasBody := true
            tags := [.formula { dependencies := ["customer.name"] }] }] },
      { simpleName := "Customer"
        tags := [.entity none]
        members := [
          { name := "id", type := .named "int", tags := [.id] },
          { name := "name", type := .named "string" }] }]
    names_nodup := by decide }

theorem compile_ok_iff_acyclic_orders :
    ∃ registry, Registry.resolveAll orders {} {} = ⟨.ok (), registry⟩ ∧
      ((∃ model, compile orders {} = .ok model) ↔
        registry.graph.AssociationsReachEntities ∧ registry.graph.PathsNavigable ∧
          ∀ key, ¬ TransGen registry.graph.Awaits key key) := by
  have hresult : (Registry.resolveAll orders {} {}).result = .ok () := by decide +kernel
  have registered : Registry.resolveAll orders {} {} =
      ⟨.ok (), (Registry.resolveAll orders {} {}).registry⟩ := by rw [← hresult]
  exact ⟨_, registered, (compile_ok_iff_acyclic registered).1⟩

/-- Once every declaration is registered, each association links to an entity and each dependency
can be followed, but some expression waits for itself, directly or through others: there are as
many rounds as there are properties, and then exactly the expressions from which waiting leads to
a cycle are reported, in the order of registration, the first of them as the one to blame. -/
theorem compile_error_of_cycle {registry : Registry}
    (registered : Registry.resolveAll source config {} = ⟨.ok (), registry⟩)
    (hassociations : registry.graph.AssociationsReachEntities)
    (hpaths : registry.graph.PathsNavigable)
    (hcycle : ∃ key, TransGen registry.graph.Awaits key key) :
    ∃ first rest reported violation report,
      (first :: rest).Sublist registry.graph.propKeys ∧
      (∀ key, key ∈ first :: rest ↔
        (∃ prop, registry.graph.prop? key = some prop ∧ prop.kind.isExpression = true) ∧
        ∃ cyclic, ReflTransGen registry.graph.Awaits key cyclic ∧
          TransGen registry.graph.Awaits cyclic cyclic) ∧
      violation = .ofMember (registry.graph.label first).owner (registry.graph.label first).name
        (.unsettled registry.graph.props.length ((first :: rest).map registry.graph.label)) ∧
      report = {
        cls := .resolutionTimeout
        subject := ⟨(registry.graph.label first).owner, some (registry.graph.label first).name⟩
        message :=
          "property resolution did not settle within " ++
            toString registry.graph.props.length ++ " rounds, still pending: " ++
            ", ".intercalate ((first :: rest).map fun key => (registry.graph.label key).text) ++
            "; their dependencies are circular" } ∧
      violation.diagnostic = report ∧
      Compilation.run source config =
        ⟨.error violation, reported ++ [.compileFailed report.cls report.text]⟩ ∧
      reported.filterMap Event.finishedRound? = List.range' 1 registry.graph.props.length := by
  have hcomplete := Registry.resolveAll_complete registered
  have hall := Graph.settleable_iff.2 ⟨hassociations, hpaths⟩
  have hbound : registry.graph.pending.length = registry.graph.props.length := by
    simp [hcomplete.pending_eq, Graph.propKeys]
  have hends := Registry.resolveRounds_ends hcomplete.healthy hall
  rw [hbound] at hends
  generalize houtcome : registry.resolveRounds = outcome at hends
  cases hends with
  | @settled last rounds _ _ =>
    -- a compilation that succeeds leaves no cycle
    have hok : ∃ model, compile source config = .ok model := by
      refine ⟨⟨last.graph, rounds⟩, (compile_eq_ok_iff registered).2 ?_⟩
      rw [houtcome]
      exact ⟨rfl, rfl⟩
    obtain ⟨key, hkey⟩ := hcycle
    have hgrounded := ((exists_compile_ok_iff registered).1 hok).2
    exact absurd hkey (Graph.forall_grounded_iff.1 hgrounded key)
  | @stuck last violation hadvances hhealthy hungrounded hfinished hblame =>
    have hfresh := hadvances.fresh_eq
    -- what is stuck is what is not grounded, in the order of registration
    have hstuck (key : PropKey) :
        key ∈ last.graph.pending ↔ ¬ registry.graph.Grounded key := by
      constructor
      · intro hkey hgrounded
        exact hungrounded key hkey (hgrounded.congr hfresh)
      · intro hkey
        exact hhealthy.mem_pending_of_not_grounded fun hgrounded =>
          hkey (hgrounded.congr hfresh.symm)
    have horder : last.graph.pending.Sublist registry.graph.propKeys := by
      rw [Graph.propKeys_congr hfresh]
      exact List.filter_sublist
    cases hpending : last.graph.pending with
    | nil =>
      rw [Registry.unsettled?_eq_none_iff.2 hpending] at hblame
      cases hblame
    | cons first rest =>
      rw [Registry.unsettled?, hpending, ← Graph.label_congr hfresh, List.head?_cons,
        Option.map_some, Option.some.injEq] at hblame
      subst hblame
      refine ⟨first, rest, last.events, _, _, hpending ▸ horder, ?_, rfl, rfl, ?_, ?_, ?_⟩
      · intro key
        rw [← hpending, hstuck, Graph.not_grounded_iff]
      · rw [Violation.diagnostic_unsettled, List.map_map]
        rfl
      · rw [Compilation.run_of_error registered houtcome, Registry.events_giveUp,
          Violation.diagnostic_unsettled, List.map_map]
        rfl
      · change last.finishedRounds = _
        rw [hfinished, hcomplete.finishedRounds_eq, List.nil_append]

/-- A member that is computed from another one. -/
def Member.over (name other : String) : Member where
  name := name
  hasBody := true
  type := .named "int"
  tags := [.formula { dependencies := [other] }]

/-- A type with two expressions that wait for each other. -/
def deadlock : Source where
  declarations := {
    toList := [
      { simpleName := "Range"
        tags := [.embeddable]
        members := [.over "low" "high", .over "high" "low"] }]
    names_nodup := by decide }

theorem compile_error_of_cycle_deadlock :
    ∃ registry, Registry.resolveAll deadlock {} {} = ⟨.ok (), registry⟩ ∧
      registry.graph.AssociationsReachEntities ∧ registry.graph.PathsNavigable ∧
      (∃ key, TransGen registry.graph.Awaits key key) ∧
      ∃ violation reported,
        Compilation.run deadlock {} =
          ⟨.error violation,
            reported ++ [.compileFailed .resolutionTimeout violation.diagnostic.text]⟩ ∧
        reported.filterMap Event.finishedRound? = [1, 2] := by
  let low : Property :=
    { Member.specOf deadlock (.over "low" "high") 1 with declaringType := ⟨0⟩ }
  let high : Property :=
    { Member.specOf deadlock (.over "high" "low") 2 with declaringType := ⟨0⟩ }
  obtain ⟨registry, registered, hprops, hmerged⟩ : ∃ registry,
      Registry.resolveAll deadlock {} {} = ⟨.ok (), registry⟩ ∧
        registry.graph.props = [low, high] ∧ registry.graph.mergedProps ⟨0⟩ = [⟨0⟩, ⟨1⟩] := by
    have hresult : (Registry.resolveAll deadlock {} {}).result = .ok () := by decide +kernel
    exact ⟨(Registry.resolveAll deadlock {} {}).registry, by rw [← hresult], by decide +kernel,
      by decide +kernel⟩
  have hlow : registry.graph.prop? ⟨0⟩ = some low := by simp [Graph.prop?, hprops]
  have hhigh : registry.graph.prop? ⟨1⟩ = some high := by simp [Graph.prop?, hprops]
  -- each of the two paths ends at the other property
  have hup : registry.graph.Navigates ⟨0⟩ (Text.splitDots "high") [⟨1⟩] :=
    .last (by simp [hmerged]) hhigh
  have hdown : registry.graph.Navigates ⟨0⟩ (Text.splitDots "low") [⟨0⟩] :=
    .last (by simp [hmerged]) hlow
  have hassociations : registry.graph.AssociationsReachEntities := by
    intro prop hprop hkind
    simp only [hprops, List.mem_cons, List.not_mem_nil, or_false] at hprop
    rcases hprop with rfl | rfl <;> cases hkind
  have hpaths : registry.graph.PathsNavigable := by
    intro prop hprop path hpath
    simp only [hprops, List.mem_cons, List.not_mem_nil, or_false] at hprop
    rcases hprop with rfl | rfl
    · exact ⟨_, List.mem_singleton.1 hpath ▸ hup⟩
    · exact ⟨_, List.mem_singleton.1 hpath ▸ hdown⟩
  have hfirst : registry.graph.Awaits ⟨0⟩ ⟨1⟩ :=
    ⟨low, high, "high", _, hlow, List.mem_singleton_self _, hup, rfl, hhigh, rfl⟩
  have hsecond : registry.graph.Awaits ⟨1⟩ ⟨0⟩ :=
    ⟨high, low, "low", _, hhigh, List.mem_singleton_self _, hdown, rfl, hlow, rfl⟩
  have hcycle : ∃ key, TransGen registry.graph.Awaits key key :=
    ⟨⟨0⟩, .tail (.single hfirst) hsecond⟩
  obtain ⟨first, rest, reported, violation, report, -, -, -, rfl, hreport, hrun, hrounds⟩ :=
    compile_error_of_cycle registered hassociations hpaths hcycle
  rw [hprops] at hrounds
  have hclass : violation.diagnostic.cls = .resolutionTimeout := congrArg Diagnostic.cls hreport
  rw [← hreport, hclass] at hrun
  exact ⟨registry, registered, hassociations, hpaths, hcycle, violation, reported, hrun, hrounds⟩

end Metamodel
