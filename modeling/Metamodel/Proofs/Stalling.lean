import Mathlib.Data.List.Perm.Subperm
import Metamodel.Proofs.Departure
import Metamodel.Proofs.Standing

/-!
# What a timeout tells

Rounds run out only when one of them has settled nothing, and then everything that is pending
waits for something (`roundsFrom_stuck`). What a property waits for is at the end of one of its
paths or on the way there. Where that is itself pending, the chain goes on, so that it comes to a
cycle or to a property that waits for an expression which had failed before. Read
`Graph.PassesThrough` first; `Reachable.resolveRounds_timeout` is the whole statement.
-/

namespace Metamodel

open Relation (ReflTransGen TransGen)

namespace Graph

variable {graph before after : Graph} {key awaited : PropKey} {prop : Property}

/-! ### Paths as far as they can be followed -/

/-- From a type on, some segments lead to the property at a key, with the others still to be
followed. Each segment before it names a property that links to the type which has the next. -/
inductive Leads (graph : Graph) : TypeKey → List String → PropKey → List String → Prop where
  | here {owner : TypeKey} {segment : String} {key : PropKey} {rest : List String} :
    graph.findProp? owner segment = some key →
    Leads graph owner (segment :: rest) key rest
  | further {owner target : TypeKey} {segment : String} {key last : PropKey}
      {segments rest : List String} :
    graph.findProp? owner segment = some key →
    graph.target? key = some target →
    Leads graph target segments last rest →
    Leads graph owner (segment :: segments) last rest

/-- A path of a property leads to another property, with some segments still to be followed. -/
def Reaches (graph : Graph) (key other : PropKey) (rest : List String) : Prop :=
  ∃ prop path, graph.prop? key = some prop ∧ path ∈ prop.kind.paths ∧
    graph.Leads prop.declaringType (Text.splitDots path) other rest

/-- A path of a property goes through another property or ends at it. -/
def PassesThrough (graph : Graph) (key other : PropKey) : Prop :=
  ∃ rest, graph.Reaches key other rest

/-- A path of a property ends at another property. -/
def EndsAt (graph : Graph) (key other : PropKey) : Prop :=
  graph.Reaches key other []

/-- A path goes through or ends at a property, both of them among the given ones. -/
def PassesAmong (graph : Graph) (keys : List PropKey) (key other : PropKey) : Prop :=
  key ∈ keys ∧ other ∈ keys ∧ graph.PassesThrough key other

/-- The property at a key is an expression that has failed. -/
def FailedExpression (graph : Graph) (key : PropKey) : Prop :=
  ∃ prop, graph.prop? key = some prop ∧ prop.kind.isExpression = true ∧
    ∃ round, prop.resolution = .failed round

/-- Paths lead on as resolution goes on. -/
theorem Leads.advances {owner : TypeKey} {segments rest : List String}
    (h : before.Leads owner segments key rest) (hadvances : before.Advances after) :
    after.Leads owner segments key rest := by
  have hfind := findProp?_congr hadvances.fresh_eq
  induction h with
  | here hfound => exact .here (hfind ▸ hfound)
  | further hfound htarget _ ih =>
    have hcontinues : before.Continues after := .of_advances hadvances
    exact .further (hfind ▸ hfound) (hcontinues.target?_mono htarget) ih

theorem Reaches.advances {rest : List String} (h : before.Reaches key awaited rest)
    (hadvances : before.Advances after) : after.Reaches key awaited rest := by
  obtain ⟨prop, path, hkey, hpath, hleads⟩ := h
  obtain ⟨prop', hkey', hfresh⟩ := exists_prop?_of_fresh hadvances.fresh_eq hkey
  refine ⟨prop', path, hkey', ?_, ?_⟩
  · rwa [show prop'.kind = prop.kind from congrArg (·.kind) hfresh]
  · rw [show prop'.declaringType = prop.declaringType from congrArg (·.declaringType) hfresh]
    exact hleads.advances hadvances

/-! ### Waiting -/

/-- An attempt at the property at a key has to wait. -/
def Waits (graph : Graph) (key : PropKey) : Prop :=
  ∃ prop, graph.prop? key = some prop ∧ graph.attempt prop = .ok none

/-- Everything that is pending has to wait. -/
def Stuck (graph : Graph) : Prop :=
  ∀ key ∈ graph.pending, graph.Waits key

/-- A dependency waits on the way for what is pending, and at its end for an expression that is
not settled. -/
theorem leads_of_walkDependency {path : String} {owner : TypeKey} {segments : List String}
    (h : graph.walkDependency path owner segments = .ok none) :
    ∃ key rest, graph.Leads owner segments key rest ∧
      (key ∈ graph.pending ∨ rest = [] ∧ graph.FailedExpression key) := by
  induction segments generalizing owner with
  | nil => cases h
  | cons segment rest ih =>
    rw [walkDependency] at h
    cases hfound : graph.findProp? owner segment with
    | none => simp [dependencyAt, hfound] at h
    | some key =>
      obtain ⟨-, prop, hkey, -⟩ := findProp?_eq_some hfound
      simp only [dependencyAt, hfound] at h
      split at h
      · next hlast =>
        subst hlast
        have hawaits : graph.awaitsAtEnd key = true := by
          by_contra hsettled
          simp [hsettled] at h
        simp only [awaitsAtEnd, hkey, Option.any_some, Bool.and_eq_true] at hawaits
        refine ⟨key, [], .here hfound, ?_⟩
        cases hresolution : prop.resolution with
        | pending => exact .inl (mem_pending.2 ⟨prop, hkey, hresolution⟩)
        | failed round => exact .inr ⟨rfl, prop, hkey, hawaits.1, round, hresolution⟩
        | resolved _ _ _ => simp [hresolution, Resolution.isResolved] at hawaits
      · split at h
        · next hpending => exact ⟨key, rest, .here hfound, .inl (awaitsOnTheWay_iff.1 hpending)⟩
        · split at h
          · cases h
          · next target htarget =>
            simp only [Except.map_eq_ok_iff, Option.map_eq_none_iff] at h
            obtain ⟨_, hwalk, rfl⟩ := h
            obtain ⟨last, rest', hleads, hawaited⟩ := ih hwalk
            exact ⟨last, rest', .further hfound htarget hleads, hawaited⟩

/-- Dependencies wait where one of them does. -/
theorem exists_path_of_followDependencies {owner : TypeKey} {paths : List String}
    (h : graph.followDependencies owner paths = .ok none) :
    ∃ path ∈ paths, graph.walkDependency path owner (Text.splitDots path) = .ok none := by
  induction paths with
  | nil => cases h
  | cons path rest ih =>
    rw [followDependencies] at h
    split at h
    · cases h
    · next hwalk => exact ⟨path, List.mem_cons_self, hwalk⟩
    · simp only [Except.map_eq_ok_iff, Option.map_eq_none_iff] at h
      obtain ⟨_, hrest, rfl⟩ := h
      obtain ⟨other, hother, hwalk⟩ := ih hrest
      exact ⟨other, List.mem_cons_of_mem _ hother, hwalk⟩

/-- What waits has a path through something pending, or one that ends at an expression that has
failed. -/
theorem Waits.exists_awaited (h : graph.Waits key) :
    (∃ other ∈ graph.pending, graph.PassesThrough key other) ∨
      ∃ other, graph.EndsAt key other ∧ graph.FailedExpression other := by
  obtain ⟨prop, hkey, hattempt⟩ := h
  have hfollow : graph.followDependencies prop.declaringType prop.kind.paths = .ok none := by
    rw [attempt] at hattempt
    cases hkind : prop.kind with
    | sql _ => simp [hkind] at hattempt
    | scalar => simp [hkind, Except.map_eq_ok_iff] at hattempt
    | association => simp [hkind, Except.map_eq_ok_iff] at hattempt
    | expression paths =>
      simp only [hkind, Except.map_eq_ok_iff, Option.map_eq_none_iff] at hattempt
      obtain ⟨_, hfollow, rfl⟩ := hattempt
      exact hfollow
  obtain ⟨path, hpath, hwalk⟩ := exists_path_of_followDependencies hfollow
  obtain ⟨other, rest, hleads, hpending | ⟨rfl, hfailed⟩⟩ := leads_of_walkDependency hwalk
  · exact .inl ⟨other, hpending, rest, prop, path, hkey, hpath, hleads⟩
  · exact .inr ⟨other, ⟨prop, path, hkey, hpath, hleads⟩, hfailed⟩

/-- Settling properties makes no expression fail. -/
theorem FailedExpression.of_proceeds (hproceeds : ReflTransGen Proceeds before after)
    (h : after.FailedExpression key) : before.FailedExpression key := by
  induction hproceeds with
  | refl => exact h
  | tail _ hstep ih =>
    refine ih ?_
    obtain ⟨prop, hkey, hkind, round, hfailed⟩ := h
    cases hstep with
    | settles _ _ _ =>
      rw [prop?_setResolution] at hkey
      split at hkey
      · obtain ⟨_, -, rfl⟩ := Option.map_eq_some_iff.1 hkey
        cases hfailed
      · exact ⟨prop, hkey, hkind, round, hfailed⟩

/-! ### Chains among finitely many properties -/

/-- From where only finitely many things can be reached, something can be reached that is on a
cycle, or from which nothing can be. -/
theorem exists_cycle_or_end {α : Type} [DecidableEq α] {r : α → α → Prop} (reached : List α) {a : α}
    (h : ∀ b, ReflTransGen r a b → b ∈ reached) :
    ∃ last, ReflTransGen r a last ∧ (TransGen r last last ∨ ∀ next, ¬ r last next) := by
  by_cases hcycle : ∃ b, ReflTransGen r a b ∧ TransGen r b b
  · obtain ⟨b, hreach, hback⟩ := hcycle
    exact ⟨b, hreach, .inl hback⟩
  · have hacc : Acc (fun next previous => r previous next) a := by
      refine acc_of_acyclic reached fun b hreach => ⟨h b hreach, fun hback => ?_⟩
      exact hcycle ⟨b, hreach, hback⟩
    clear h hcycle
    induction hacc with
    | intro a _ ih =>
      by_cases hnext : ∃ next, r a next
      · obtain ⟨next, hstep⟩ := hnext
        obtain ⟨last, hreach, hlast⟩ := ih next hstep
        exact ⟨last, .head hstep hreach, hlast⟩
      · exact ⟨a, .refl, .inr fun next hstep => hnext ⟨next, hstep⟩⟩

/-- In a stuck graph everything pending leads, among what is pending, to a cycle or to a property
with a path that ends at an expression that has failed. -/
theorem Stuck.exists_cycle_or_failed (h : graph.Stuck) (hkey : key ∈ graph.pending) :
    ∃ last ∈ graph.pending, ReflTransGen (graph.PassesAmong graph.pending) key last ∧
      (TransGen (graph.PassesAmong graph.pending) last last ∨
        ∃ awaited, graph.EndsAt last awaited ∧ graph.FailedExpression awaited) := by
  have hreached (other : PropKey)
      (hreach : ReflTransGen (graph.PassesAmong graph.pending) key other) :
      other ∈ graph.pending := by
    rcases ReflTransGen.cases_tail hreach with rfl | ⟨_, -, -, hother, -⟩
    · exact hkey
    · exact hother
  obtain ⟨last, hreach, hcycle | hend⟩ := exists_cycle_or_end graph.pending hreached
  · exact ⟨last, hreached last hreach, hreach, .inl hcycle⟩
  · have hlast := hreached last hreach
    rcases (h last hlast).exists_awaited with ⟨other, hother, hpasses⟩ | hfailed
    · exact absurd ⟨hlast, hother, hpasses⟩ (hend other)
    · exact ⟨last, hlast, hreach, .inr hfailed⟩

/-! ### Faults of steps -/

theorem cls_of_walkDependency {path : String} {owner : TypeKey} {segments : List String}
    {fault : Fault} (h : graph.walkDependency path owner segments = .error fault) :
    fault.cls = .reference := by
  induction segments generalizing owner with
  | nil => cases h
  | cons segment rest ih =>
    rw [walkDependency] at h
    cases hfound : graph.findProp? owner segment with
    | none =>
      simp only [dependencyAt, hfound, Except.error.injEq] at h
      subst h
      rfl
    | some key =>
      simp only [dependencyAt, hfound] at h
      split at h
      · cases h
      · split at h
        · cases h
        · split at h
          · cases h
            rfl
          · exact ih (Except.map_eq_error_iff.1 h)

theorem cls_of_followDependencies {owner : TypeKey} {paths : List String} {fault : Fault}
    (h : graph.followDependencies owner paths = .error fault) : fault.cls = .reference := by
  induction paths with
  | nil => cases h
  | cons path rest ih =>
    rw [followDependencies] at h
    split at h
    · next hwalk =>
      cases h
      exact cls_of_walkDependency hwalk
    · cases h
    · exact ih (Except.map_eq_error_iff.1 h)

theorem cls_of_linkedType? {fault : Fault} (h : graph.linkedType? prop = .error fault) :
    fault.cls = .reference := by
  rw [linkedType?] at h
  split at h
  · cases h
  · split at h
    · cases h
    · cases h
      rfl

/-- A step fails for want of what a property refers to, and never for want of rounds. -/
theorem cls_of_attempt {fault : Fault} (h : graph.attempt prop = .error fault) :
    fault.cls = .reference := by
  rw [attempt] at h
  cases hkind : prop.kind with
  | sql _ => simp [hkind] at h
  | scalar =>
    simp only [hkind, settleScalar, Except.map_eq_error_iff, Except.bind_eq_error_iff] at h
    rcases h with hlinked | ⟨linked, -, hsettle⟩
    · exact cls_of_linkedType? hlinked
    · cases hsettle
  | association =>
    simp only [hkind, settleAssociation, Except.map_eq_error_iff, Except.bind_eq_error_iff] at h
    rcases h with hlinked | ⟨linked, -, hsettle⟩
    · exact cls_of_linkedType? hlinked
    · split at hsettle
      · cases hsettle
        rfl
      · split at hsettle
        · cases hsettle
        · cases hsettle
          rfl
  | expression paths =>
    simp only [hkind, Except.map_eq_error_iff] at h
    exact cls_of_followDependencies h

end Graph

namespace Registry

variable {registry after : Registry} {round bound : Nat} {violation : Violation}

/-! ### Rounds that settle nothing -/

/-- What stops steps short is a missing reference. -/
theorem cls_of_anyStep {keys : List PropKey}
    (h : anyStep (resolveProperty round) keys registry = ⟨.error violation, after⟩) :
    violation.fault.cls = .reference := by
  obtain ⟨key, -, middle, -, hfails⟩ :=
    exists_of_anyStep_error (P := fun _ => True) (fun _ _ => trivial) trivial h
  have hstep := resolveProperty_step round key middle
  rw [hfails] at hstep
  cases hstep with
  | fails _ _ hattempt => exact Graph.cls_of_attempt hattempt

/-- Steps that do not fail leave everything as it is if all that is pending waits, and otherwise
there was something to settle to begin with. -/
theorem anyStep_waits_or_yields {keys : List PropKey} {yes : Bool}
    (h : anyStep (resolveProperty round) keys registry = ⟨.ok yes, after⟩) :
    (after = registry ∧ ∀ key ∈ keys, key ∈ registry.graph.pending → registry.graph.Waits key) ∨
      ∃ key ∈ registry.graph.pending, ∃ settlement, registry.graph.Yields key settlement := by
  induction keys generalizing yes with
  | nil =>
    cases h
    exact .inl ⟨rfl, by simp⟩
  | cons key keys ih =>
    have hstep := resolveProperty_step round key registry
    rw [anyStep] at h
    cases houtcome : resolveProperty round key registry with
    | mk result middle =>
      rw [houtcome] at h hstep
      cases result with
      | error violation => cases h
      | ok first =>
        cases hothers : anyStep (resolveProperty round) keys middle with
        | mk result last =>
          simp only [hothers, Outcome.mk.injEq, Except.map_eq_ok_iff] at h
          obtain ⟨⟨others, rfl, -⟩, rfl⟩ := h
          cases hstep with
          | idle hidle =>
            rcases ih hothers with ⟨hsame, hwaits⟩ | hyields
            · have hfirst (hpending : key ∈ registry.graph.pending) : registry.graph.Waits key :=
                absurd hpending hidle
              exact .inl ⟨hsame, List.forall_mem_cons.2 ⟨hfirst, hwaits⟩⟩
            · exact .inr hyields
          | waits hkey _ hattempt =>
            rcases ih hothers with ⟨hsame, hwaits⟩ | hyields
            · have hfirst : registry.graph.Waits key := ⟨_, hkey, hattempt⟩
              exact .inl ⟨hsame, List.forall_mem_cons.2 ⟨fun _ => hfirst, hwaits⟩⟩
            · exact .inr hyields
          | settles hkey hpending hattempt =>
            exact .inr ⟨key, Graph.mem_pending.2 ⟨_, hkey, hpending⟩, _, _, hkey, hattempt⟩

/-- A round that does not fail leaves a stuck graph as it is, and any other with less to settle. -/
theorem resolveRound_stuck_or_lt
    (hdeclared : registry.graph.types.flatMap (·.declared) = registry.graph.propKeys)
    {more : Bool} (h : registry.resolveRound round = ⟨.ok more, after⟩) :
    registry.graph.Stuck ∧ after = registry ∨
      ¬ registry.graph.Stuck ∧ after.graph.pending.length < registry.graph.pending.length := by
  obtain ⟨hresolves, -, -, hsettled⟩ := resolveRound_ok hdeclared h
  rw [resolveRound_eq hdeclared] at h
  rcases anyStep_waits_or_yields h with ⟨hsame, hwaits⟩ | ⟨key, hpending, settlement, hyields⟩
  · refine .inl ⟨fun key hkey => hwaits key (List.mem_filter.1 hkey).1 hkey, hsame⟩
  · refine .inr ⟨fun hstuck => ?_, ?_⟩
    · obtain ⟨prop, hkey, hattempt⟩ := hstuck key hpending
      obtain ⟨prop', hkey', hattempt'⟩ := hyields
      obtain rfl := Option.some.inj (hkey.symm.trans hkey')
      cases hattempt.symm.trans hattempt'
    · -- what is pending later was pending before, and one property no longer is
      have hnodup : (key :: after.graph.pending).Nodup :=
        List.nodup_cons.2 ⟨hsettled key settlement hyields, (nodup_propKeys _).filter _⟩
      have hsubset : (key :: after.graph.pending) ⊆ registry.graph.pending :=
        List.cons_subset.2 ⟨hpending, fun _ hlater => hresolves.advances.mem_pending hlater⟩
      exact (List.subperm_of_subset hnodup hsubset).length_le

/-- With as many rounds as there are pending properties, rounds run out only in a stuck graph. -/
theorem roundsFrom_stuck {remaining : Nat}
    (hdeclared : registry.graph.types.flatMap (·.declared) = registry.graph.propKeys)
    (hlength : registry.graph.Stuck ∨ registry.graph.pending.length ≤ remaining)
    (h : registry.roundsFrom bound remaining round = ⟨.error violation, after⟩)
    (hclass : violation.fault.cls = .resolutionTimeout) :
    ∃ last : Registry, ReflTransGen Graph.Proceeds registry.graph last.graph ∧
      last.graph.Stuck ∧ unsettled? bound last.graph = some violation ∧ after = last.giveUp := by
  induction remaining generalizing registry round with
  | zero =>
    rw [roundsFrom] at h
    cases hblame : unsettled? bound registry.graph with
    | none => simp [hblame] at h
    | some blamed =>
      simp only [hblame, Outcome.mk.injEq, Except.error.injEq] at h
      obtain ⟨rfl, rfl⟩ := h
      have hstuck : registry.graph.Stuck := by
        refine hlength.elim id fun hnone => ?_
        rw [Graph.Stuck, List.length_eq_zero_iff.1 (Nat.le_zero.1 hnone)]
        simp
      exact ⟨registry, .refl, hstuck, hblame, rfl⟩
  | succ remaining ih =>
    rw [roundsFrom] at h
    cases hround : registry.resolveRound round with
    | mk result middle =>
      rw [hround] at h
      cases result with
      | error failed =>
        -- a step that fails is no timeout
        simp only [Outcome.mk.injEq, Except.error.injEq] at h
        obtain ⟨rfl, -⟩ := h
        rw [resolveRound_eq hdeclared] at hround
        rw [cls_of_anyStep hround] at hclass
        cases hclass
      | ok more =>
        obtain ⟨hresolves, hproceeds, -, -⟩ := resolveRound_ok hdeclared hround
        cases more with
        | false => simp at h
        | true =>
          have hlength' : middle.graph.Stuck ∨ middle.graph.pending.length ≤ remaining := by
            rcases resolveRound_stuck_or_lt hdeclared hround with ⟨hstuck, rfl⟩ | ⟨hfree, hlt⟩
            · exact .inl hstuck
            · exact .inr (Nat.le_of_lt_succ (hlt.trans_le (hlength.resolve_left hfree)))
          let finished := middle.record (.roundFinished round middle.graph.pending.length)
          have hdeclared' : finished.graph.types.flatMap (·.declared) = finished.graph.propKeys :=
            Graph.declared_congr hresolves.advances.fresh_eq hdeclared
          obtain ⟨last, hlater, hlast⟩ := ih hdeclared' hlength' h
          exact ⟨last, hproceeds.trans hlater, hlast⟩

end Registry

/-- Where rounds run out, everything named as unsettled waits, and the chains of waiting among the
named properties come to a cycle of paths or to a path that ends at an expression which had failed
before the rounds were run. So without such an expression there is a cycle among them. -/
theorem Reachable.resolveRounds_timeout {source : Source} {config : Config} {registry : Registry}
    (h : Reachable source config registry) {violation : Violation} {after : Registry}
    (htimeout : registry.resolveRounds = ⟨.error violation, after⟩)
    (hclass : violation.diagnostic.cls = .resolutionTimeout) :
    ∃ named : List PropKey,
      violation.fault =
        .unsettled registry.graph.pending.length (named.map after.graph.label) ∧
      (∀ key ∈ named, ∃ last ∈ named,
        ReflTransGen (after.graph.PassesAmong named) key last ∧
          (TransGen (after.graph.PassesAmong named) last last ∨
            ∃ awaited, after.graph.EndsAt last awaited ∧
              registry.graph.FailedExpression awaited)) ∧
      ((∀ key ∈ named, ∀ awaited, after.graph.EndsAt key awaited →
          ¬ registry.graph.FailedExpression awaited) →
        ∃ key ∈ named, TransGen (after.graph.PassesAmong named) key key) := by
  have hdeclared := h.sound.realizes.declared
  rw [Registry.resolveRounds_eq] at htimeout
  obtain ⟨last, hproceeds, hstuck, hblame, rfl⟩ :=
    Registry.roundsFrom_stuck hdeclared (.inr (Nat.le_refl _)) htimeout hclass
  obtain ⟨first, hfirst, rfl⟩ := Option.map_eq_some_iff.1 hblame
  have hadvances : last.graph.Advances last.giveUp.graph :=
    Registry.advances_of_resolving (Registry.giveUp_resolving last)
  have hamong (key other : PropKey)
      (hpasses : last.graph.PassesAmong last.graph.pending key other) :
      last.giveUp.graph.PassesAmong last.graph.pending key other := by
    obtain ⟨hkey, hother, rest, hreaches⟩ := hpasses
    exact ⟨hkey, hother, rest, hreaches.advances hadvances⟩
  have hchains : ∀ key ∈ last.graph.pending, ∃ last' ∈ last.graph.pending,
      ReflTransGen (last.giveUp.graph.PassesAmong last.graph.pending) key last' ∧
        (TransGen (last.giveUp.graph.PassesAmong last.graph.pending) last' last' ∨
          ∃ awaited, last.giveUp.graph.EndsAt last' awaited ∧
            registry.graph.FailedExpression awaited) := by
    intro key hkey
    obtain ⟨last', hlast, hreach, hcycle⟩ := hstuck.exists_cycle_or_failed hkey
    refine ⟨last', hlast, ReflTransGen.mono hamong _ _ hreach, ?_⟩
    rcases hcycle with hcycle | ⟨awaited, hends, hfailed⟩
    · exact .inl (TransGen.mono hamong _ _ hcycle)
    · exact .inr ⟨awaited, hends.advances hadvances, hfailed.of_proceeds hproceeds⟩
  refine ⟨last.graph.pending, ?_, hchains, fun hnone => ?_⟩
  · rw [← Graph.label_congr hadvances.fresh_eq]
    rfl
  · obtain ⟨key, hkey, -, hcycle | ⟨awaited, hends, hfailed⟩⟩ :=
      hchains first (List.mem_of_head? hfirst)
    · exact ⟨key, hkey, hcycle⟩
    · exact absurd hfailed (hnone key hkey awaited hends)

theorem Reachable.resolveRounds_timeout_deadlock :
    ∃ registry violation after, Reachable deadlock {} registry ∧
      registry.resolveRounds = ⟨.error violation, after⟩ ∧
      violation.diagnostic.cls = .resolutionTimeout ∧
      (∀ key, ¬ registry.graph.FailedExpression key) ∧
      ∃ named : List PropKey,
        violation.fault = .unsettled 2 (named.map after.graph.label) ∧
        ∃ key ∈ named, TransGen (after.graph.PassesAmong named) key key := by
  let registry := (Command.resolveAll.run deadlock {} {}).registry
  have hreachable : Reachable deadlock {} registry := .step .resolveAll .refl
  have hpending : ∀ prop ∈ registry.graph.props, prop.resolution = .pending := by decide +kernel
  have hbound : registry.graph.pending.length = 2 := by decide +kernel
  have hunfailed (key : PropKey) : ¬ registry.graph.FailedExpression key := by
    rintro ⟨prop, hkey, -, round, hfailed⟩
    rw [hpending prop (List.mem_of_getElem? hkey)] at hfailed
    cases hfailed
  obtain ⟨violation, hresult, hclass⟩ : ∃ violation,
      registry.resolveRounds.result = .error violation ∧
        violation.diagnostic.cls = .resolutionTimeout := by
    exact ⟨.ofMember "Range" "low" (.unsettled 2 [⟨"Range", "low"⟩, ⟨"Range", "high"⟩]),
      by decide +kernel, rfl⟩
  have htimeout : registry.resolveRounds =
      ⟨.error violation, registry.resolveRounds.registry⟩ := by rw [← hresult]
  obtain ⟨named, hnamed, -, hcycle⟩ :=
    Reachable.resolveRounds_timeout hreachable htimeout hclass
  rw [hbound] at hnamed
  exact ⟨registry, violation, _, hreachable, htimeout, hclass, hunfailed, named, hnamed,
    hcycle fun key _ awaited _ => hunfailed awaited⟩

/-- A total of prices that are not there, and a rounded total. -/
def bills : Source where
  declarations := {
    toList := [
      { simpleName := "Bill"
        tags := [.embeddable]
        members := [.over "total" "price", .over "rounded" "total"] }]
    names_nodup := by decide }

/-- Where an expression has failed, another that waits for it is reported as circular although no
path leads back. -/
theorem Reachable.exists_timeout_without_cycle_bills :
    ∃ registry violation after, Reachable bills {} registry ∧
      registry.resolveRounds = ⟨.error violation, after⟩ ∧
      violation.diagnostic.cls = .resolutionTimeout ∧
      ∀ key, ¬ TransGen after.graph.PassesThrough key key := by
  let registered := (Command.resolveAll.run bills {} {}).registry
  let linked := (Command.linkTargets.run bills {} registered).registry
  let registry := (Command.resolveRounds.run bills {} linked).registry
  let after := registry.resolveRounds.registry
  have hreachable : Reachable bills {} registry :=
    .step .resolveRounds (.step .linkTargets (.step .resolveAll .refl))
  have hresult : registry.resolveRounds.result =
      .error (.ofMember "Bill" "rounded" (.unsettled 1 [⟨"Bill", "rounded"⟩])) := by decide +kernel
  have hfields : after.graph.props.map (fun prop => (prop.declaringType, prop.kind)) =
      [(⟨0⟩, .expression ["price"]), (⟨0⟩, .expression ["total"])] := by decide +kernel
  have hprice : after.graph.findProp? ⟨0⟩ "price" = none := by decide +kernel
  have htotal : after.graph.findProp? ⟨0⟩ "total" = some ⟨0⟩ := by decide +kernel
  have hone {path : String} {key : PropKey} {rest : List String}
      (hsplit : Text.splitDots path = [path])
      (hleads : after.graph.Leads ⟨0⟩ (Text.splitDots path) key rest) :
      after.graph.findProp? ⟨0⟩ path = some key := by
    rw [hsplit] at hleads
    cases hleads with
    | here hfound => exact hfound
    | further _ _ hrest => cases hrest
  -- the only path that leads anywhere is from the second property to the first
  have hpasses {key other : PropKey} (h : after.graph.PassesThrough key other) :
      key = ⟨1⟩ ∧ other = ⟨0⟩ := by
    obtain ⟨rest, prop, path, hkey, hpath, hleads⟩ := h
    have hfield : (after.graph.props.map fun prop => (prop.declaringType, prop.kind))[key.index]? =
        some (prop.declaringType, prop.kind) := by
      rw [List.getElem?_map, show after.graph.props[key.index]? = some prop from hkey]
      rfl
    rw [hfields] at hfield
    obtain ⟨_ | _ | index⟩ := key
    · obtain ⟨howner, hkind⟩ := Prod.mk.inj (Option.some.inj hfield)
      rw [← hkind] at hpath
      rw [← howner, List.mem_singleton.1 hpath] at hleads
      rw [hone (by decide +kernel) hleads] at hprice
      cases hprice
    · obtain ⟨howner, hkind⟩ := Prod.mk.inj (Option.some.inj hfield)
      rw [← hkind] at hpath
      rw [← howner, List.mem_singleton.1 hpath] at hleads
      exact ⟨rfl, Option.some.inj ((hone (by decide +kernel) hleads).symm.trans htotal)⟩
    · cases hfield
  refine ⟨registry, _, after, hreachable, by rw [← hresult], rfl, fun key hcycle => ?_⟩
  obtain ⟨other, hfirst, -⟩ := TransGen.head'_iff.1 hcycle
  obtain ⟨other', -, hlast⟩ := TransGen.tail'_iff.1 hcycle
  obtain ⟨rfl, -⟩ := hpasses hfirst
  obtain ⟨-, hsame⟩ := hpasses hlast
  cases hsame

end Metamodel
