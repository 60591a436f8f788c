import Metamodel.Compilation
import Metamodel.Proofs.Registration
import Metamodel.Proofs.Resolution.Rounds

/-!
# What calls do to a registry

A call may do much, and it may fail halfway. Yet whatever it does is a sequence of moves, of which
there are four kinds: a name is registered, a property is stepped, a round is reported as
finished, or a pending property is given up. `Registry.Moves` lists them and `LeadsTo.moves` says
that there are no others; so what every move keeps holds of every reachable registry, after failures
as well. The last three kinds are those of resolution (`Registry.Resolving`), which registers
nothing and leaves whatever is no longer pending as it is.
-/

namespace Metamodel

open Relation (ReflTransGen)

namespace Registry

variable {source : Source} {config : Config} {registry before after : Registry}

/-! ### Moves -/

/-- One thing that a call does to a registry. -/
inductive Moves (source : Source) (config : Config) (before : Registry) : Registry → Prop where
  | registers (name : String) :
    Moves source config before (before.resolve source config name).registry
  | steps (round : Nat) (key : PropKey) :
    Moves source config before (resolveProperty round key before).registry
  | reports (round pending : Nat) :
    Moves source config before (before.record (.roundFinished round pending))
  | givesUp {key : PropKey} :
    key ∈ before.graph.pending →
    Moves source config before (before.setResolution key (.failed none))

section Runs

variable {α κ : Type} {r : Registry → Registry → Prop}

/-- Where each step comes down to moves, so do steps one after the other. -/
theorem forEach_moves {step : κ → Registry → Outcome α}
    (hstep : ∀ item registry, ReflTransGen r registry (step item registry).registry)
    (items : List κ) (registry : Registry) :
    ReflTransGen r registry (forEach step items registry).registry := by
  induction items generalizing registry with
  | nil => exact .refl
  | cons item rest ih =>
    have hfirst := hstep item registry
    rw [forEach]
    cases houtcome : step item registry with
    | mk result middle =>
      rw [houtcome] at hfirst
      cases result with
      | error violation => exact hfirst
      | ok value => exact hfirst.trans (ih middle)

/-- Steps that say whether there is more to do leave the same registry as if they did not. -/
theorem registry_anyStep (step : κ → Registry → Outcome Bool) (items : List κ)
    (registry : Registry) :
    (anyStep step items registry).registry = (forEach step items registry).registry := by
  induction items generalizing registry with
  | nil => rfl
  | cons item rest ih =>
    rw [anyStep, forEach]
    cases step item registry with
    | mk result middle =>
      cases result with
      | error violation => rfl
      | ok yes => exact ih middle

theorem anyStep_moves {step : κ → Registry → Outcome Bool}
    (hstep : ∀ item registry, ReflTransGen r registry (step item registry).registry)
    (items : List κ) (registry : Registry) :
    ReflTransGen r registry (anyStep step items registry).registry := by
  rw [registry_anyStep]
  exact forEach_moves hstep items registry

/-- Where steps are stopped short, one of them fails, in a registry of which all holds that those
before it keep. -/
theorem exists_of_forEach_error {step : κ → Registry → Outcome α} {P : Registry → Prop}
    (hkeeps : ∀ {item registry value}, P registry →
      (step item registry).result = .ok value → P (step item registry).registry)
    {items : List κ} {violation : Violation} (hstart : P before)
    (h : forEach step items before = ⟨.error violation, after⟩) :
    ∃ item ∈ items, ∃ middle, P middle ∧ step item middle = ⟨.error violation, after⟩ := by
  induction items generalizing before with
  | nil => cases h
  | cons item rest ih =>
    rw [forEach] at h
    cases houtcome : step item before with
    | mk result middle =>
      rw [houtcome] at h
      cases result with
      | error first =>
        cases h
        exact ⟨item, List.mem_cons_self, before, hstart, houtcome⟩
      | ok value =>
        have hmiddle := hkeeps hstart (congrArg Outcome.result houtcome)
        rw [houtcome] at hmiddle
        obtain ⟨other, hother, hfails⟩ := ih hmiddle h
        exact ⟨other, List.mem_cons_of_mem _ hother, hfails⟩

/-- Steps that say whether there is more to do are stopped where they would be if they did not. -/
theorem forEach_eq_error_of_anyStep {step : κ → Registry → Outcome Bool} {items : List κ}
    {violation : Violation} (h : anyStep step items before = ⟨.error violation, after⟩) :
    forEach step items before = ⟨.error violation, after⟩ := by
  induction items generalizing before with
  | nil => cases h
  | cons item rest ih =>
    rw [anyStep] at h
    rw [forEach]
    cases houtcome : step item before with
    | mk result middle =>
      rw [houtcome] at h
      cases result with
      | error first =>
        cases h
        rfl
      | ok yes =>
        simp only [Outcome.mk.injEq, Except.map_eq_error_iff] at h
        obtain ⟨hresult, rfl⟩ := h
        exact ih (by rw [← hresult])

/-- So one of them fails, too. -/
theorem exists_of_anyStep_error {step : κ → Registry → Outcome Bool} {P : Registry → Prop}
    (hkeeps : ∀ {item registry yes}, P registry →
      (step item registry).result = .ok yes → P (step item registry).registry)
    {items : List κ} {violation : Violation} (hstart : P before)
    (h : anyStep step items before = ⟨.error violation, after⟩) :
    ∃ item ∈ items, ∃ middle, P middle ∧ step item middle = ⟨.error violation, after⟩ :=
  exists_of_forEach_error hkeeps hstart (forEach_eq_error_of_anyStep h)

end Runs

/-! ### Resolution -/

/-- One thing that resolution does to a registry. -/
inductive Resolving (before : Registry) : Registry → Prop where
  | steps (round : Nat) (key : PropKey) :
    Resolving before (resolveProperty round key before).registry
  | reports (round pending : Nat) :
    Resolving before (before.record (.roundFinished round pending))
  | givesUp {key : PropKey} :
    key ∈ before.graph.pending →
    Resolving before (before.setResolution key (.failed none))

theorem Resolving.moves (h : Resolving before after) : Moves source config before after := by
  cases h with
  | steps round key => exact .steps round key
  | reports round pending => exact .reports round pending
  | givesUp hkey => exact .givesUp hkey

theorem moves_of_resolving (h : ReflTransGen Resolving before after) :
    ReflTransGen (Moves source config) before after :=
  ReflTransGen.mono (fun _ _ => Resolving.moves) _ _ h

theorem Resolving.advances (h : Resolving before after) :
    before.graph.Advances after.graph := by
  cases h with
  | steps round key => exact (resolveProperty_step round key before).resolves.advances
  | reports round pending => exact .refl _
  | givesUp hkey => exact .setResolution hkey _

/-- Resolution registers nothing and undoes nothing. -/
theorem advances_of_resolving (h : ReflTransGen Resolving before after) :
    before.graph.Advances after.graph := by
  induction h with
  | refl => exact .refl _
  | tail _ hlast ih => exact ih.trans hlast.advances

theorem resolveType_resolving (round : Nat) (key : TypeKey) (registry : Registry) :
    ReflTransGen Resolving registry (resolveType round key registry).registry :=
  anyStep_moves (fun key _ => .single (.steps round key)) _ registry

theorem resolveRound_resolving (round : Nat) (registry : Registry) :
    ReflTransGen Resolving registry (resolveRound round registry).registry :=
  anyStep_moves (resolveType_resolving round) _ registry

/-- Giving up on some properties leaves the others pending. -/
theorem foldl_givesUp {keys : List PropKey} (hnodup : keys.Nodup)
    (hpending : ∀ key ∈ keys, key ∈ registry.graph.pending) :
    ReflTransGen Resolving registry
      (keys.foldl (fun registry key => registry.setResolution key (.failed none)) registry) := by
  induction keys generalizing registry with
  | nil => exact .refl
  | cons key keys ih =>
    obtain ⟨hkey, hnodup⟩ := List.nodup_cons.1 hnodup
    refine .head (.givesUp (hpending key List.mem_cons_self)) (ih hnodup fun other hother => ?_)
    have hdistinct : other ∉ [key] := by
      rintro hmem
      exact hkey (List.mem_singleton.1 hmem ▸ hother)
    have hkept := (Resolves.setResolution (hpending key List.mem_cons_self)
      (.failed none)).elsewhere other hdistinct
    rw [Graph.mem_pending, hkept, ← Graph.mem_pending]
    exact hpending other (List.mem_cons_of_mem _ hother)

theorem giveUp_resolving (registry : Registry) : ReflTransGen Resolving registry registry.giveUp :=
  foldl_givesUp ((nodup_propKeys _).filter _) fun _ hkey => hkey

/-- Once a round is over, what is left to do is to run the rest. -/
theorem roundsFrom_succ_resolving {bound remaining : Nat}
    (hrest : ∀ round registry, ReflTransGen Resolving registry
      (roundsFrom bound remaining round registry).registry) (round : Nat) (registry : Registry) :
    ReflTransGen Resolving (registry.resolveRound round).registry
      (roundsFrom bound (remaining + 1) round registry).registry := by
  rw [roundsFrom]
  cases registry.resolveRound round with
  | mk result middle =>
    cases result with
    | error violation => exact .refl
    | ok more =>
      cases more with
      | true => exact .head (.reports round middle.graph.pending.length) (hrest _ _)
      | false => exact .single (.reports round middle.graph.pending.length)

theorem roundsFrom_resolving (bound remaining round : Nat) (registry : Registry) :
    ReflTransGen Resolving registry (roundsFrom bound remaining round registry).registry := by
  induction remaining generalizing registry round with
  | zero =>
    rw [roundsFrom]
    cases unsettled? bound registry.graph with
    | none => exact .refl
    | some violation => exact giveUp_resolving registry
  | succ remaining ih =>
    exact (resolveRound_resolving round registry).trans
      (roundsFrom_succ_resolving ih round registry)

theorem resolveRounds_resolving (registry : Registry) :
    ReflTransGen Resolving registry registry.resolveRounds.registry := by
  rw [resolveRounds]
  split
  · exact .refl
  · exact roundsFrom_resolving _ _ _ registry

/-- To link the target of a property is to register a name, if anything. -/
theorem linkTarget_moves {r : Registry → Registry → Prop}
    (hresolve : ∀ name registry, r registry (registry.resolve source config name).registry)
    (key : PropKey) (registry : Registry) :
    ReflTransGen r registry (linkTarget source config key registry).registry := by
  rw [linkTarget]
  cases (registry.graph.prop? key).bind (·.reference) with
  | none => exact .refl
  | some name => exact .single (hresolve name registry)

end Registry

open Registry (Moves)

variable {source : Source} {config : Config} {registry before after : Registry}

/-- Every call comes down to moves, whether it succeeds or fails. -/
theorem Command.run_moves (command : Command) (registry : Registry) :
    ReflTransGen (Moves source config) registry (command.run source config registry).registry := by
  cases command with
  | resolve name => exact .single (.registers name)
  | resolveAll => exact Registry.forEach_moves (fun name _ => .single (.registers name)) _ registry
  | linkTargets =>
    have hlink (key : PropKey) (registry : Registry) : ReflTransGen (Moves source config) registry
        (Registry.linkTarget source config key registry).registry :=
      Registry.linkTarget_moves (fun name _ => .registers name) key registry
    exact Registry.forEach_moves hlink _ registry
  | resolveProperty key round => exact .single (.steps round key)
  | resolveType key round =>
    exact Registry.moves_of_resolving (Registry.resolveType_resolving round key registry)
  | resolveRounds =>
    exact Registry.moves_of_resolving (Registry.resolveRounds_resolving registry)

/-- So does every sequence of calls. -/
theorem LeadsTo.moves (h : LeadsTo source config before after) :
    ReflTransGen (Moves source config) before after := by
  induction h with
  | refl => exact .refl
  | step command _ ih => exact ih.trans (command.run_moves _)

end Metamodel
