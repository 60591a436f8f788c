import Metamodel.Proofs.Stalling

/-!
# Accounting for rounds

A call of `Registry.resolveRounds` runs no more rounds than there were pending properties, and tells
how many are left after each. `Registry.Finishes` lists the ways in which the call may end; what
holds in each of them is read off the rounds that the loop has come to by then
(`ComesTo.accounted`). A round that settles nothing finds the graph stuck, and stuck it stays, so
that in a call that succeeds the numbers go down from round to round until they come to zero.
`Reachable.resolveRounds_accounts` is the whole statement; read `Registry.AccountsForRounds` first.
-/

namespace Metamodel

open Relation (ReflTransGen)

/-- The number of pending properties that an event reports, with the round that it reports them
of. -/
def Event.roundReport? : Event → Option (Nat × Nat)
  | .roundFinished round pending => some (pending, round)
  | _ => none

namespace Graph

variable {graph before after : Graph} {key other : PropKey}

/-! ### Failed properties -/

/-- The property at a key has failed. -/
def Failed (graph : Graph) (key : PropKey) : Prop :=
  ∃ prop round, graph.prop? key = some prop ∧ prop.resolution = .failed round

theorem not_failed_of_mem_pending (h : key ∈ graph.pending) : ¬ graph.Failed key := by
  rintro ⟨prop, round, hprop, hfailed⟩
  rw [mem_pending_iff hprop, hfailed] at h
  cases h

/-- A new resolution makes a property fail or not, and says nothing of the others. -/
theorem failed_setResolution_iff {resolution : Resolution} (hkey : key ∈ graph.pending) :
    (graph.setResolution key resolution).Failed other ↔
      (key = other ∧ ∃ round, resolution = .failed round) ∨ graph.Failed other := by
  obtain ⟨prop, hprop, hpending⟩ := mem_pending.1 hkey
  by_cases hsame : key = other
  · subst hsame
    simp [Failed, prop?_setResolution, hprop, hpending]
  · simp [Failed, prop?_setResolution, hsame]

/-- Settling one property after the other makes none fail. -/
theorem failed_iff_of_proceeds (h : ReflTransGen Proceeds before after) :
    after.Failed key ↔ before.Failed key := by
  induction h with
  | refl => exact Iff.rfl
  | tail _ hstep ih =>
    cases hstep with
    | settles round hpending _ =>
      rw [failed_setResolution_iff hpending, ih]
      simp

end Graph

namespace Registry

variable {registry start current before after : Registry} {round later bound : Nat}
  {key : PropKey} {violation : Violation}

/-! ### Rounds -/

/-- What a registry has reported of rounds: how many properties each has left pending. -/
def roundReports (registry : Registry) : List (Nat × Nat) :=
  registry.events.filterMap Event.roundReport?

theorem roundReports_record (registry : Registry) (round pending : Nat) :
    (registry.record (.roundFinished round pending)).roundReports =
      registry.roundReports ++ [(pending, round)] := by
  simp [roundReports, record, Event.roundReport?]

theorem Step.roundReports_eq {outcome : Outcome Bool}
    (h : Step round key registry outcome) :
    outcome.registry.roundReports = registry.roundReports := by
  cases h with
  | idle | waits | fails => rfl
  | settles => simp [roundReports, record, setResolution, Event.roundReport?]

/-- Nothing is reported of a round before it is over. -/
theorem roundReports_resolveRound (round : Nat) (registry : Registry) :
    (registry.resolveRound round).registry.roundReports = registry.roundReports := by
  have hsteps : ReflTransGen (fun before after => after.roundReports = before.roundReports)
      registry (registry.resolveRound round).registry := by
    rw [resolveRound_eq_anyStep]
    exact anyStep_moves
      (fun key registry => .single (resolveProperty_step round key registry).roundReports_eq)
      registry.roundOrder registry
  generalize (registry.resolveRound round).registry = after at hsteps ⊢
  induction hsteps with
  | refl => rfl
  | tail _ hstep ih => exact hstep.trans ih

/-- A round goes through the properties at some keys without failing: it steps those that it finds
pending, which the second list has in order, and passes over the others. -/
inductive StepsThrough (round : Nat) :
    List PropKey → List PropKey → Registry → Registry → Prop where
  | nil {registry : Registry} : StepsThrough round [] [] registry registry
  | pass {key : PropKey} {keys stepped : List PropKey} {registry after : Registry} :
    key ∉ registry.graph.pending →
    StepsThrough round keys stepped registry after →
    StepsThrough round (key :: keys) stepped registry after
  | step {key : PropKey} {keys stepped : List PropKey} {registry middle after : Registry}
      {more : Bool} :
    key ∈ registry.graph.pending →
    resolveProperty round key registry = ⟨.ok more, middle⟩ →
    StepsThrough round keys stepped middle after →
    StepsThrough round (key :: keys) (key :: stepped) registry after

/-- Of distinct properties those are stepped that are pending at the start: what is pending stays so
until it is stepped itself. -/
theorem stepsThrough_of_anyStep {keys : List PropKey} (hnodup : keys.Nodup) {more : Bool}
    (h : anyStep (resolveProperty round) keys registry = ⟨.ok more, after⟩) :
    StepsThrough round keys (keys.filter (· ∈ registry.graph.pending)) registry after := by
  induction keys generalizing registry more with
  | nil =>
    cases h
    exact .nil
  | cons key keys ih =>
    obtain ⟨hkey, hnodup⟩ := List.nodup_cons.1 hnodup
    have hstep := resolveProperty_step round key registry
    rw [anyStep] at h
    cases houtcome : resolveProperty round key registry with
    | mk result middle =>
      rw [houtcome] at h hstep
      cases result with
      | error violation => cases h
      | ok first =>
        have hresolves := hstep.resolves
        cases hothers : anyStep (resolveProperty round) keys middle with
        | mk result last =>
          simp only [hothers, Outcome.mk.injEq, Except.map_eq_ok_iff] at h
          obtain ⟨⟨others, rfl, -⟩, rfl⟩ := h
          have hrest := ih hnodup hothers
          have hsame : keys.filter (· ∈ middle.graph.pending) =
              keys.filter (· ∈ registry.graph.pending) := by
            refine List.filter_congr fun other hother => ?_
            have hne : other ∉ [key] := fun hmem => hkey (List.mem_singleton.1 hmem ▸ hother)
            rw [decide_eq_decide, Graph.mem_pending, Graph.mem_pending,
              hresolves.elsewhere other hne]
          rw [hsame] at hrest
          by_cases hpending : key ∈ registry.graph.pending
          · rw [List.filter_cons_of_pos (by simpa using hpending)]
            exact .step hpending houtcome hrest
          · rw [List.filter_cons_of_neg (by simpa using hpending)]
            cases hstep with
            | idle => exact .pass hpending hrest
            | waits hkey' hpending' _ | settles hkey' hpending' _ =>
              exact absurd (Graph.mem_pending.2 ⟨_, hkey', hpending'⟩) hpending

/-- Steps that fail settle some properties one by one, and then make one fail. -/
theorem exists_failing_step {keys : List PropKey}
    (h : anyStep (resolveProperty round) keys registry = ⟨.error violation, after⟩) :
    ∃ (middle : Registry) (key : PropKey),
      ReflTransGen Graph.Proceeds registry.graph middle.graph ∧
      key ∈ middle.graph.pending ∧ after = middle.setResolution key (.failed (some round)) := by
  obtain ⟨key, -, middle, hproceeds, hfails⟩ := exists_of_anyStep_error
    (P := fun middle => ReflTransGen Graph.Proceeds registry.graph middle.graph)
    (fun hbefore hok => hbefore.trans ((resolveProperty_step ..).proceeds hok)) .refl h
  have hstep := resolveProperty_step round key middle
  rw [hfails] at hstep
  cases hstep with
  | fails hkey hpending _ =>
    exact ⟨middle, key, hproceeds, Graph.mem_pending.2 ⟨_, hkey, hpending⟩, rfl⟩

/-- Nothing happens in a round of a stuck graph. -/
theorem resolveRound_of_stuck (h : registry.graph.Stuck) (round : Nat) :
    ∃ more, registry.resolveRound round = ⟨.ok more, registry⟩ := by
  have hstep (key : PropKey) (after : Registry) (hsame : after = registry) :
      ∃ yes last, resolveProperty round key after = ⟨.ok yes, last⟩ ∧ last = registry := by
    subst hsame
    have hstep := resolveProperty_step round key after
    generalize resolveProperty round key after = outcome at hstep
    cases hstep with
    | idle | waits => exact ⟨_, _, rfl, rfl⟩
    | settles hkey hpending hattempt | fails hkey hpending hattempt =>
      obtain ⟨prop, hprop, hwaits⟩ := h key (Graph.mem_pending.2 ⟨_, hkey, hpending⟩)
      obtain rfl := Option.some.inj (hkey.symm.trans hprop)
      cases hattempt.symm.trans hwaits
  obtain ⟨more, last, hround, rfl⟩ :=
    anyStep_exists_ok (P := (· = registry)) hstep registry.roundOrder rfl
  exact ⟨more, by rw [resolveRound_eq_anyStep, hround]⟩

/-! ### On the way -/

/-- What can be told of a call when its loop has come to a round: properties were settled one by
one, a report was made for each round before, and something is pending unless it is the first. The
reports tell how many properties are pending now, and of fewer from round to round as long as the
graph is not stuck. -/
structure Accounted (start : Registry) (round : Nat) (current : Registry) : Prop where
  pos : 1 ≤ round
  proceeds : ReflTransGen Graph.Proceeds start.graph current.graph
  pending_ne_nil : 1 < round → current.graph.pending ≠ []
  reports : ∃ counts, current.roundReports = start.roundReports ++ counts.zipIdx 1 ∧
    counts.length + 1 = round ∧
    (¬ current.graph.Stuck →
      (start.graph.pending.length :: counts).Pairwise (· > ·) ∧
      ∀ count ∈ start.graph.pending.length :: counts, current.graph.pending.length ≤ count)

/-- Types declare all properties in order. -/
def Declares (registry : Registry) : Prop :=
  registry.graph.types.flatMap (·.declared) = registry.graph.propKeys

theorem Accounted.declares (h : start.Accounted round current) (hstart : start.Declares) :
    current.Declares :=
  Graph.declared_congr (Graph.advances_of_proceeds h.proceeds).fresh_eq hstart

/-- A finished round is accounted for by its report. -/
theorem Accounted.next (h : start.Accounted round current) (hstart : start.Declares)
    (hround : current.resolveRound round = ⟨.ok true, after⟩) :
    start.Accounted (round + 1)
      (after.record (.roundFinished round after.graph.pending.length)) := by
  have hdeclares := h.declares hstart
  obtain ⟨-, hproceeds, hmore, -⟩ := resolveRound_ok hdeclares hround
  refine ⟨by omega, h.proceeds.trans hproceeds, fun _ => hmore.1 rfl, ?_⟩
  obtain ⟨counts, hreports, hlength, hcounts⟩ := h.reports
  have hquiet := roundReports_resolveRound round current
  rw [hround] at hquiet
  refine ⟨counts ++ [after.graph.pending.length], ?_, by simp [hlength], fun hfree => ?_⟩
  · rw [roundReports_record, hquiet, hreports, List.zipIdx_append, List.append_assoc]
    simp [← hlength, Nat.add_comm]
  · -- the graph was not stuck before the round either, which has therefore settled something
    rcases resolveRound_stuck_or_lt hdeclares hround with ⟨hstuck, rfl⟩ | ⟨hfree', hlt⟩
    · exact absurd hstuck hfree
    · obtain ⟨hpairwise, hle⟩ := hcounts hfree'
      have hgt : ∀ count ∈ start.graph.pending.length :: counts,
          after.graph.pending.length < count := fun count hcount =>
        hlt.trans_le (hle count hcount)
      refine ⟨?_, fun count hcount => ?_⟩
      · rw [← List.cons_append, List.pairwise_append]
        refine ⟨hpairwise, List.pairwise_singleton _ _, fun count hcount other hother => ?_⟩
        obtain rfl := List.mem_singleton.1 hother
        exact hgt count hcount
      · rw [← List.cons_append] at hcount
        rcases List.mem_append.1 hcount with hcount | hcount
        · exact (hgt count hcount).le
        · exact (List.mem_singleton.1 hcount).ge

/-- Whatever round the loop has come to is accounted for. -/
theorem ComesTo.accounted (h : start.ComesTo round current) (hstart : start.Declares) :
    start.Accounted round current := by
  induction h with
  | first =>
    refine ⟨le_rfl, .refl, fun hlt => absurd hlt (Nat.lt_irrefl 1), [], by simp, rfl, fun _ => ?_⟩
    simp
  | next _ _ hround ih => exact ih.next hstart hround

/-- The loop comes to a round in one way. -/
theorem ComesTo.unique {other : Registry} (h : start.ComesTo round current)
    (h' : start.ComesTo round other) (hstart : start.Declares) : current = other := by
  induction h generalizing other with
  | first =>
    cases h' with
    | first => rfl
    | next hcomes => exact absurd (hcomes.accounted hstart).pos (by omega)
  | next hcomes _ hround ih =>
    cases h' with
    | first => exact absurd (hcomes.accounted hstart).pos (by omega)
    | next hcomes' _ hround' =>
      obtain rfl := ih hcomes'
      cases hround.symm.trans hround'
      rfl

/-- Once the graph is stuck it stays as it is. -/
theorem ComesTo.graph_eq_of_stuck {other : Registry} (h : start.ComesTo round current)
    (hstuck : current.graph.Stuck) (h' : start.ComesTo later other) (hle : round ≤ later)
    (hstart : start.Declares) : other.graph = current.graph := by
  induction h' with
  | first =>
    obtain rfl : round = 1 := le_antisymm hle (h.accounted hstart).pos
    rw [h.unique .first hstart]
  | @next later previous after hcomes hbound hround ih =>
    rcases Nat.lt_or_ge later round with hlt | hge
    · obtain rfl : round = later + 1 := by omega
      rw [h.unique (.next hcomes hbound hround) hstart]
    · have hprevious := ih hge
      rcases resolveRound_stuck_or_lt ((hcomes.accounted hstart).declares hstart) hround with
        ⟨-, rfl⟩ | ⟨hfree, -⟩
      · exact hprevious
      · exact absurd (hprevious ▸ hstuck) hfree

/-! ### Ends -/

/-- How a call of `resolveRounds` may end. -/
inductive Finishes (start : Registry) : Outcome Nat → Prop where
  /-- There is nothing to do. -/
  | idle : start.graph.pending = [] → Finishes start ⟨.ok 0, start⟩
  /-- A round leaves nothing pending. -/
  | settles {round : Nat} {current after : Registry} :
    start.ComesTo round current →
    round ≤ start.graph.pending.length →
    current.resolveRound round = ⟨.ok false, after⟩ →
    Finishes start ⟨.ok round, after.record (.roundFinished round after.graph.pending.length)⟩
  /-- A round fails. -/
  | fails {round : Nat} {current after : Registry} {violation : Violation} :
    start.ComesTo round current →
    round ≤ start.graph.pending.length →
    current.resolveRound round = ⟨.error violation, after⟩ →
    Finishes start ⟨.error violation, after⟩
  /-- The rounds run out. -/
  | runsOut {last : Registry} {violation : Violation} :
    start.ComesTo (start.graph.pending.length + 1) last →
    last.graph.pending ≠ [] →
    unsettled? start.graph.pending.length last.graph = some violation →
    Finishes start ⟨.error violation, last.giveUp⟩

/-- From a round on, the loop comes to one of these ends. -/
theorem ComesTo.finishes {remaining : Nat} (h : start.ComesTo round current)
    (hsum : round + remaining = start.graph.pending.length + 1) (hstart : start.Declares)
    (hbusy : start.graph.pending ≠ []) :
    start.Finishes (roundsFrom start.graph.pending.length remaining round current) := by
  induction remaining generalizing round current with
  | zero =>
    obtain rfl : round = start.graph.pending.length + 1 := hsum
    have hpending := (h.accounted hstart).pending_ne_nil
      (Nat.lt_add_of_pos_left (List.length_pos_iff.2 hbusy))
    rw [roundsFrom]
    cases hblame : unsettled? start.graph.pending.length current.graph with
    | none => exact absurd (unsettled?_eq_none_iff.1 hblame) hpending
    | some violation => exact .runsOut h hpending hblame
  | succ remaining ih =>
    rw [roundsFrom]
    cases hround : current.resolveRound round with
    | mk result after =>
      cases result with
      | error violation => exact .fails h (by omega) hround
      | ok more =>
        cases more with
        | true => exact ih (.next h (by omega) hround) (by omega)
        | false => exact .settles h (by omega) hround

/-- A call comes to one of these ends. -/
theorem resolveRounds_finishes (hstart : start.Declares) :
    start.Finishes start.resolveRounds := by
  by_cases hbusy : start.graph.pending = []
  · rw [resolveRounds, hbusy]
    exact .idle hbusy
  · rw [start.resolveRounds_eq]
    exact ComesTo.first.finishes (Nat.add_comm 1 _) hstart hbusy

/-- The account of a call of `resolveRounds`. -/
structure AccountsForRounds (start : Registry) : Prop where
  /-- The call ends after some rounds, of which there are no more than properties were pending. -/
  finishes : start.Finishes start.resolveRounds
  /-- A round that is finished has stepped what was pending at its start, each property once. -/
  stepped : ∀ round current more after, start.ComesTo round current →
    current.resolveRound round = ⟨.ok more, after⟩ →
    StepsThrough round current.roundOrder current.graph.pending current after ∧
      current.graph.pending.Nodup
  /-- A finished round says that work remains exactly if something is pending. -/
  more_iff : ∀ round current more after, start.ComesTo round current →
    current.resolveRound round = ⟨.ok more, after⟩ → (more = true ↔ after.graph.pending ≠ [])
  /-- When the rounds have run out, something is pending, if anything was. -/
  runs_out : ∀ last, start.ComesTo (start.graph.pending.length + 1) last →
    start.graph.pending ≠ [] → last.graph.pending ≠ []
  /-- After a round that settles nothing no round settles anything. -/
  stalls : ∀ round current more after, start.ComesTo round current →
    current.resolveRound round = ⟨.ok more, after⟩ →
    after.graph.pending = current.graph.pending →
    ∀ later other, round ≤ later → start.ComesTo later other →
      other.graph = current.graph ∧ ∃ more, other.resolveRound later = ⟨.ok more, other⟩
  /-- A success tells the number of rounds. Each has been reported, with fewer pending properties
  from round to round and none after the last. -/
  ok : ∀ rounds after, start.resolveRounds = ⟨.ok rounds, after⟩ →
    rounds ≤ start.graph.pending.length ∧ after.graph.pending = [] ∧
    (rounds = 0 ↔ start.graph.pending.length = 0) ∧
    ∃ counts, after.roundReports = start.roundReports ++ counts.zipIdx 1 ∧
      counts.length = rounds ∧ (start.graph.pending.length :: counts).Pairwise (· > ·) ∧
      (start.graph.pending.length :: counts).getLast? = some 0
  /-- Where the rounds run out, as many have been reported as properties were pending, and exactly
  what is still pending then fails. -/
  timeout : ∀ violation after, start.resolveRounds = ⟨.error violation, after⟩ →
    violation.diagnostic.cls = .resolutionTimeout →
    ∃ (last : Registry) (counts : List Nat), start.ComesTo (start.graph.pending.length + 1) last ∧
      after.roundReports = start.roundReports ++ counts.zipIdx 1 ∧
      counts.length = start.graph.pending.length ∧
      ∀ key, key ∈ last.graph.pending ↔ ¬ start.graph.Failed key ∧ after.graph.Failed key
  /-- Any other failure happens in a round. The rounds before have been reported, and exactly one
  property fails. -/
  error : ∀ violation after, start.resolveRounds = ⟨.error violation, after⟩ →
    violation.diagnostic.cls ≠ .resolutionTimeout →
    ∃ (round : Nat) (current : Registry) (counts : List Nat),
      start.ComesTo round current ∧ round ≤ start.graph.pending.length ∧
      current.resolveRound round = ⟨.error violation, after⟩ ∧
      after.roundReports = start.roundReports ++ counts.zipIdx 1 ∧
      counts.length + 1 = round ∧
      ∃! key, ¬ start.graph.Failed key ∧ after.graph.Failed key

/-- A finished round has stepped what was pending at its start. -/
theorem stepsThrough_of_resolveRound (hdeclares : registry.Declares) {more : Bool}
    (h : registry.resolveRound round = ⟨.ok more, after⟩) :
    StepsThrough round registry.roundOrder registry.graph.pending registry after := by
  have horder : registry.roundOrder = registry.graph.propKeys :=
    registry.roundOrder_eq.trans hdeclares
  have hpending : registry.graph.propKeys.filter (· ∈ registry.graph.pending) =
      registry.graph.pending := by
    rw [Graph.pending]
    refine List.filter_congr fun key hkey => ?_
    simp [hkey]
  rw [resolveRound_eq_anyStep] at h
  have hsteps := stepsThrough_of_anyStep (horder ▸ nodup_propKeys _) h
  rwa [horder, hpending, ← horder] at hsteps

/-- A call that succeeds has reported each round, with numbers that go down to zero. -/
theorem Finishes.of_ok {rounds : Nat} (h : start.Finishes ⟨.ok rounds, after⟩)
    (hstart : start.Declares) :
    rounds ≤ start.graph.pending.length ∧ after.graph.pending = [] ∧
    (rounds = 0 ↔ start.graph.pending.length = 0) ∧
    ∃ counts, after.roundReports = start.roundReports ++ counts.zipIdx 1 ∧
      counts.length = rounds ∧ (start.graph.pending.length :: counts).Pairwise (· > ·) ∧
      (start.graph.pending.length :: counts).getLast? = some 0 := by
  cases h with
  | idle hnone => exact ⟨Nat.zero_le _, hnone, by simp [hnone], [], by simp [hnone]⟩
  | @settles _ current after hcomes hbound hround =>
    have haccounted := hcomes.accounted hstart
    have hpos := haccounted.pos
    have hdeclares := haccounted.declares hstart
    obtain ⟨-, -, hmore, -⟩ := resolveRound_ok hdeclares hround
    have hnone : after.graph.pending = [] := by simpa using hmore
    have hbusy : current.graph.pending ≠ [] := by
      rcases Nat.eq_or_lt_of_le hpos with rfl | hlt
      · rw [hcomes.unique .first hstart]
        exact List.length_pos_iff.1 hbound
      · exact haccounted.pending_ne_nil hlt
    obtain ⟨counts, hreports, hlength, hcounts⟩ := haccounted.reports
    have hquiet := roundReports_resolveRound rounds current
    rw [hround] at hquiet
    -- the last round has settled something, so the graph was not stuck before
    rcases resolveRound_stuck_or_lt hdeclares hround with ⟨-, rfl⟩ | ⟨hfree, hlt⟩
    · exact absurd hnone hbusy
    · obtain ⟨hpairwise, hle⟩ := hcounts hfree
      rw [hnone, List.length_nil] at hlt
      refine ⟨hbound, hnone, by omega, counts ++ [0], ?_, by simpa using hlength, ?_, ?_⟩
      · rw [roundReports_record, hquiet, hreports, hnone, List.zipIdx_append, List.append_assoc]
        simp [← hlength, Nat.add_comm]
      · rw [← List.cons_append, List.pairwise_append]
        refine ⟨hpairwise, List.pairwise_singleton _ _, fun count hcount other hother => ?_⟩
        obtain rfl := List.mem_singleton.1 hother
        exact hlt.trans_le (hle count hcount)
      · rw [← List.cons_append, List.getLast?_concat]

/-- What is given up fails. -/
theorem failed_giveUp_iff : registry.giveUp.graph.Failed key ↔
    key ∈ registry.graph.pending ∨ registry.graph.Failed key := by
  by_cases hpending : key ∈ registry.graph.pending
  · obtain ⟨prop, hprop, -⟩ := Graph.mem_pending.1 hpending
    simp [Graph.Failed, prop?_giveUp, hpending, hprop]
  · simp [Graph.Failed, prop?_giveUp, hpending]

/-- After a round that settles nothing no round settles anything. -/
theorem ComesTo.stalls {more : Bool} {other : Registry} (h : start.ComesTo round current)
    (hstart : start.Declares) (hround : current.resolveRound round = ⟨.ok more, after⟩)
    (hsame : after.graph.pending = current.graph.pending) (hle : round ≤ later)
    (h' : start.ComesTo later other) :
    other.graph = current.graph ∧ ∃ more, other.resolveRound later = ⟨.ok more, other⟩ := by
  rcases resolveRound_stuck_or_lt ((h.accounted hstart).declares hstart) hround with
    ⟨hstuck, -⟩ | ⟨-, hlt⟩
  · have hgraph := h.graph_eq_of_stuck hstuck h' hle hstart
    exact ⟨hgraph, resolveRound_of_stuck (hgraph ▸ hstuck) later⟩
  · rw [hsame] at hlt
    exact absurd hlt (Nat.lt_irrefl _)

/-- Where the rounds run out, what is still pending fails. -/
theorem Finishes.of_timeout (h : start.Finishes ⟨.error violation, after⟩)
    (hstart : start.Declares) (hclass : violation.diagnostic.cls = .resolutionTimeout) :
    ∃ (last : Registry) (counts : List Nat), start.ComesTo (start.graph.pending.length + 1) last ∧
      after.roundReports = start.roundReports ++ counts.zipIdx 1 ∧
      counts.length = start.graph.pending.length ∧
      ∀ key, key ∈ last.graph.pending ↔ ¬ start.graph.Failed key ∧ after.graph.Failed key := by
  cases h with
  | fails hcomes _ hround =>
    rw [resolveRound_eq_anyStep] at hround
    cases (cls_of_anyStep hround).symm.trans hclass
  | @runsOut last violation hcomes _ _ =>
    have haccounted := hcomes.accounted hstart
    obtain ⟨counts, hreports, hlength, -⟩ := haccounted.reports
    refine ⟨last, counts, hcomes, ?_, by omega, fun key => ?_⟩
    · rw [← hreports, roundReports, roundReports, events_giveUp]
    · rw [failed_giveUp_iff, Graph.failed_iff_of_proceeds haccounted.proceeds]
      have hnot : key ∈ last.graph.pending → ¬ start.graph.Failed key := by
        rw [← Graph.failed_iff_of_proceeds haccounted.proceeds]
        exact Graph.not_failed_of_mem_pending
      tauto

/-- Any other failure is that of one property in a round. -/
theorem Finishes.of_error (h : start.Finishes ⟨.error violation, after⟩)
    (hstart : start.Declares) (hclass : violation.diagnostic.cls ≠ .resolutionTimeout) :
    ∃ (round : Nat) (current : Registry) (counts : List Nat),
      start.ComesTo round current ∧ round ≤ start.graph.pending.length ∧
      current.resolveRound round = ⟨.error violation, after⟩ ∧
      after.roundReports = start.roundReports ++ counts.zipIdx 1 ∧
      counts.length + 1 = round ∧
      ∃! key, ¬ start.graph.Failed key ∧ after.graph.Failed key := by
  cases h with
  | runsOut _ _ hblame =>
    obtain ⟨_, -, rfl⟩ := Option.map_eq_some_iff.1 hblame
    exact absurd rfl hclass
  | @fails round current _ _ hcomes hbound hround =>
    have haccounted := hcomes.accounted hstart
    obtain ⟨counts, hreports, hlength, -⟩ := haccounted.reports
    have hquiet := roundReports_resolveRound round current
    rw [hround] at hquiet
    refine ⟨round, current, counts, hcomes, hbound, hround, hquiet.trans hreports, hlength, ?_⟩
    rw [resolveRound_eq_anyStep] at hround
    obtain ⟨middle, key, hproceeds, hpending, rfl⟩ := exists_failing_step hround
    -- the rounds and the steps before have settled properties, which makes none fail
    have hbefore (other : PropKey) : middle.graph.Failed other ↔ start.graph.Failed other :=
      Graph.failed_iff_of_proceeds (haccounted.proceeds.trans hproceeds)
    have hfailed (other : PropKey) :
        (middle.setResolution key (.failed (some round))).graph.Failed other ↔
          key = other ∨ start.graph.Failed other := by
      rw [setResolution, Graph.failed_setResolution_iff hpending, hbefore]
      simp
    have hnot : ¬ start.graph.Failed key := fun hfails =>
      Graph.not_failed_of_mem_pending hpending ((hbefore key).2 hfails)
    refine ⟨key, ⟨hnot, (hfailed key).2 (.inl rfl)⟩, fun other hother => ?_⟩
    exact (((hfailed other).1 hother.2).resolve_right hother.1).symm

end Registry

/-- The rounds of a reachable registry are accounted for: they are no more than properties were
pending, each steps what is pending once, and reports, failures and the end of the call are as
they should be. -/
theorem Reachable.resolveRounds_accounts {source : Source} {config : Config} {registry : Registry}
    (h : Reachable source config registry) : registry.AccountsForRounds := by
  have hstart : registry.Declares := h.sound.realizes.declared
  have hends := Registry.resolveRounds_finishes hstart
  refine {
    finishes := hends
    stepped := fun round current more after hcomes hround => ?_
    more_iff := fun round current more after hcomes hround => ?_
    runs_out := fun last hcomes hbusy => ?_
    stalls := fun round current more after hcomes hround hsame later other hle hother =>
      hcomes.stalls hstart hround hsame hle hother
    ok := fun rounds after hresult => (hresult ▸ hends).of_ok hstart
    timeout := fun violation after hresult hclass => (hresult ▸ hends).of_timeout hstart hclass
    error := fun violation after hresult hclass => (hresult ▸ hends).of_error hstart hclass }
  · exact ⟨Registry.stepsThrough_of_resolveRound ((hcomes.accounted hstart).declares hstart) hround,
      (Registry.nodup_propKeys _).filter _⟩
  · exact (Registry.resolveRound_ok ((hcomes.accounted hstart).declares hstart) hround).2.2.1
  · exact (hcomes.accounted hstart).pending_ne_nil
      (Nat.lt_add_of_pos_left (List.length_pos_iff.2 hbusy))

theorem Reachable.resolveRounds_accounts_orders :
    ∃ registry, Reachable orders {} registry ∧ registry.graph.pending.length = 5 ∧
      registry.resolveRounds.result = .ok 2 ∧
      registry.resolveRounds.registry.roundReports = [(1, 1), (0, 2)] ∧
      registry.AccountsForRounds := by
  have hreachable : LeadsTo orders {} {} _ := .step .resolveAll .refl
  exact ⟨_, hreachable, by decide +kernel, by decide +kernel, by decide +kernel,
    Reachable.resolveRounds_accounts hreachable⟩

end Metamodel
