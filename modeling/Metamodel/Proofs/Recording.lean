import Metamodel.Proofs.Timing

/-!
# What rounds record

Events are recorded step by step, from within nested loops, while the graph is still changing. The
graph that is left in the end tells nevertheless what they are: a round records the properties that
have its number, in the order of their keys, and then how many have a larger one
(`Graph.roundEvents`). `Registry.RecordsRounds` says so of the rounds that a registry has still to
run, and `resolveRounds_records` of all rounds that come to an end without failure.
-/

namespace Metamodel

namespace Graph

variable {graph before after : Graph} {key : PropKey} {round : Nat}

/-- The event that reports the property at a key, if it left the pending state in the round. -/
def settledEvent? (graph : Graph) (round : Nat) (key : PropKey) : Option Event :=
  (graph.prop? key).bind fun prop =>
    if prop.resolution.round? = some round then
      some (.propertyResolved (graph.label key) prop.kind round)
    else none

/-- How many properties left the pending state after a round. -/
def countAfter (graph : Graph) (round : Nat) : Nat :=
  (graph.propKeys.filter (round < graph.roundOf ·)).length

/-- The events of a round, as the graph tells them afterwards. -/
def roundEvents (graph : Graph) (round : Nat) : List Event :=
  graph.propKeys.filterMap (graph.settledEvent? round) ++
    [.roundFinished round (graph.countAfter round)]

/-- What is pending has no round. -/
theorem roundOf_of_mem_pending (h : key ∈ graph.pending) : graph.roundOf key = 0 := by
  obtain ⟨prop, hkey, hpending⟩ := mem_pending.1 h
  simp [roundOf, hkey, hpending, Resolution.round?]

/-- A property of another round is not reported. -/
theorem settledEvent?_eq_none (h : graph.roundOf key ≠ round) :
    graph.settledEvent? round key = none := by
  cases hkey : graph.prop? key with
  | none => simp [settledEvent?, hkey]
  | some prop =>
    have hround : prop.resolution.round? ≠ some round := by
      intro hsome
      exact h (by simp [roundOf, hkey, hsome])
    simp [settledEvent?, hkey, hround]

/-- The same property is reported in the same way. -/
theorem settledEvent?_congr (hfresh : before.fresh = after.fresh)
    (hkey : after.prop? key = before.prop? key) :
    after.settledEvent? round key = before.settledEvent? round key := by
  rw [settledEvent?, settledEvent?, hkey, label_congr hfresh]

/-- A property that is settled in a round is reported for it. -/
theorem settledEvent?_setResolution {prop : Property} (hkey : graph.prop? key = some prop)
    (target : Option TypeKey) (dependencies : List PropPath) :
    (graph.setResolution key (.resolved round target dependencies)).settledEvent? round key =
      some (.propertyResolved (graph.label key) prop.kind round) := by
  have hlabel : graph.label = (graph.setResolution key
      (.resolved round target dependencies)).label := label_congr (by simp)
  rw [settledEvent?, prop?_setResolution, if_pos rfl, hkey, ← hlabel]
  simp [Resolution.round?]

/-- What is no longer pending is reported in the same way ever after. -/
theorem Advances.settledEvent?_eq (h : before.Advances after) (hkey : key ∉ before.pending) :
    after.settledEvent? round key = before.settledEvent? round key :=
  settledEvent?_congr h.fresh_eq (h.prop?_eq hkey)

/-- The graph at the end of a round and any later one tell the same of that round. -/
theorem Advances.roundEvents_eq (h : before.Advances after) (hround : 1 ≤ round)
    (hearlier : ∀ key, before.roundOf key ≤ round)
    (hlater : ∀ key ∈ before.pending, round < after.roundOf key) :
    after.roundEvents round =
      before.propKeys.filterMap (before.settledEvent? round) ++
        [.roundFinished round before.pending.length] := by
  have hsettled : ∀ key ∈ before.propKeys,
      after.settledEvent? round key = before.settledEvent? round key := by
    intro key _
    by_cases hpending : key ∈ before.pending
    · have hbefore : before.roundOf key ≠ round := by
        rw [roundOf_of_mem_pending hpending]
        omega
      have hafter := hlater key hpending
      rw [settledEvent?_eq_none hbefore, settledEvent?_eq_none (by omega)]
    · exact h.settledEvent?_eq hpending
  have hpending : before.pending = before.propKeys.filter (round < after.roundOf ·) := by
    refine List.filter_congr fun key hkey => ?_
    rw [Bool.eq_iff_iff, decide_eq_true_iff]
    constructor
    · intro hany
      exact hlater key (List.mem_filter.2 ⟨hkey, hany⟩)
    · intro hlt
      by_contra hany
      have hkept := h.roundOf_eq fun hmem => hany (List.mem_filter.1 hmem).2
      have hle := hearlier key
      omega
  rw [roundEvents, countAfter, ← propKeys_congr h.fresh_eq, List.filterMap_congr hsettled,
    ← hpending]

end Graph

namespace Registry

variable {registry after last : Registry} {key : PropKey} {round rounds : Nat}
  {outcome : Outcome Bool}

/-! ### Steps -/

/-- A step that does not fail records the property at its key if it settles it. -/
theorem Step.events_eq (h : Step round key registry outcome) {yes : Bool}
    (hresult : outcome.result = .ok yes)
    (hnone : registry.graph.settledEvent? round key = none) :
    outcome.registry.events =
      registry.events ++ (outcome.registry.graph.settledEvent? round key).toList := by
  cases h with
  | idle _ | waits _ _ _ =>
    show registry.events = registry.events ++ (registry.graph.settledEvent? round key).toList
    rw [hnone, Option.toList_none, List.append_nil]
  | @settles prop settlement hkey _ _ =>
    have hsettled : (registry.graph.setResolution key
        (.resolved round settlement.target settlement.dependencies)).settledEvent? round key =
        some (.propertyResolved (registry.graph.label key) prop.kind round) :=
      Graph.settledEvent?_setResolution hkey _ _
    exact congrArg (fun event => registry.events ++ event.toList) hsettled.symm
  | fails _ _ _ => cases hresult

/-- Steps that do not fail, one for each of some properties, record what they settle in order. -/
theorem anyStep_events {keys : List PropKey} (hnodup : keys.Nodup) {yes : Bool}
    (hnone : ∀ key ∈ keys, registry.graph.settledEvent? round key = none)
    (h : anyStep (resolveProperty round) keys registry = ⟨.ok yes, after⟩) :
    after.events = registry.events ++ keys.filterMap (after.graph.settledEvent? round) := by
  induction keys generalizing registry yes with
  | nil =>
    cases h
    simp
  | cons key keys ih =>
    obtain ⟨hkey, hnodup⟩ := List.nodup_cons.1 hnodup
    have hstep := resolveProperty_step round key registry
    rw [anyStep] at h
    cases houtcome : resolveProperty round key registry with
    | mk result middle =>
      rw [houtcome] at h hstep
      cases result with
      | error violation => cases h
      | ok first =>
        have hfirst := hstep.events_eq rfl (hnone key List.mem_cons_self)
        have hrest := anyStep_resolves round keys middle
        cases hothers : anyStep (resolveProperty round) keys middle with
        | mk result after' =>
          rw [hothers] at hrest
          simp only [hothers, Outcome.mk.injEq, Except.map_eq_ok_iff] at h
          obtain ⟨⟨others, rfl, -⟩, rfl⟩ := h
          -- a step leaves alone whatever is not at its key
          have hmiddle : ∀ other ∈ keys, middle.graph.settledEvent? round other = none := by
            intro other hother
            have hne : other ∉ [key] := by
              intro hsame
              exact hkey (List.mem_singleton.1 hsame ▸ hother)
            rw [Graph.settledEvent?_congr hstep.resolves.advances.fresh_eq
              (hstep.resolves.elsewhere other hne)]
            exact hnone other (List.mem_cons_of_mem _ hother)
          have hlast : after'.graph.settledEvent? round key =
              middle.graph.settledEvent? round key :=
            Graph.settledEvent?_congr hrest.advances.fresh_eq (hrest.elsewhere key hkey)
          rw [ih hnodup hmiddle hothers, hfirst, List.filterMap_cons, hlast]
          cases middle.graph.settledEvent? round key <;> simp

/-! ### Rounds -/

/-- A round was run to its end: it recorded what it settled, and nothing has a later number. -/
structure RunsRound (round : Nat) (registry after : Registry) : Prop where
  advances : registry.graph.Advances after.graph
  events_eq : after.events =
    registry.events ++ after.graph.propKeys.filterMap (after.graph.settledEvent? round)
  roundOf_le : ∀ key, after.graph.roundOf key ≤ round
  roundOf_eq : ∀ key ∈ registry.graph.pending, key ∉ after.graph.pending →
    after.graph.roundOf key = round

/-- From the start of a round on, rounds were run to the end of the last, and they recorded what
the graph tells of them. -/
structure RecordsRounds (round rounds : Nat) (registry last : Registry) : Prop where
  advances : registry.graph.Advances last.graph
  le : round ≤ rounds
  roundOf_ge : ∀ key ∈ registry.graph.pending, round ≤ last.graph.roundOf key
  events_eq : last.events = registry.events ++
    (List.range' round (rounds + 1 - round)).flatMap last.graph.roundEvents

/-- A round that does not fail is run to its end. -/
theorem resolveRound_runs
    (hdeclared : registry.graph.types.flatMap (·.declared) = registry.graph.propKeys)
    (hearlier : ∀ key, registry.graph.roundOf key < round) {more : Bool}
    (h : registry.resolveRound round = ⟨.ok more, after⟩) : RunsRound round registry after := by
  have hnumbers := resolveRound_numbers round registry
  rw [h] at hnumbers
  refine ⟨hnumbers.advances, ?_, ?_, fun key => hnumbers.roundOf_eq⟩
  · rw [resolveRound_eq hdeclared] at h
    rw [← Graph.propKeys_congr hnumbers.advances.fresh_eq]
    refine anyStep_events (nodup_propKeys _) (fun key _ => ?_) h
    exact Graph.settledEvent?_eq_none (hearlier key).ne
  · intro key
    by_cases hafter : key ∈ after.graph.pending
    · rw [Graph.roundOf_of_mem_pending hafter]
      omega
    · by_cases hbefore : key ∈ registry.graph.pending
      · exact (hnumbers.roundOf_eq hbefore hafter).le
      · rw [hnumbers.advances.roundOf_eq hbefore]
        exact (hearlier key).le

/-- With its end reported, a round has recorded what any later graph tells of it. -/
theorem RunsRound.record_events (h : RunsRound round registry after) (hround : 1 ≤ round)
    {later : Graph} (hadvances : after.graph.Advances later)
    (hlater : ∀ key ∈ after.graph.pending, round < later.roundOf key) :
    (after.record (.roundFinished round after.graph.pending.length)).events =
      registry.events ++ later.roundEvents round := by
  show after.events ++ [Event.roundFinished round after.graph.pending.length] = _
  rw [h.events_eq, hadvances.roundEvents_eq hround h.roundOf_le hlater, List.append_assoc]

/-- A round that leaves nothing pending is the last. -/
theorem RunsRound.records (h : RunsRound round registry after) (hround : 1 ≤ round)
    (hnone : after.graph.pending = []) :
    RecordsRounds round round registry
      (after.record (.roundFinished round after.graph.pending.length)) where
  advances := h.advances
  le := Nat.le_refl round
  roundOf_ge key hkey := (h.roundOf_eq key hkey (by simp [hnone])).ge
  events_eq := by
    rw [Nat.add_sub_cancel_left, List.range'_one, List.flatMap_singleton]
    exact h.record_events hround (.refl _) (by simp [hnone])

/-- Any other round comes before the rest. -/
theorem RunsRound.records_of_rest (h : RunsRound round registry after) (hround : 1 ≤ round)
    (hrest : RecordsRounds (round + 1) rounds
      (after.record (.roundFinished round after.graph.pending.length)) last) :
    RecordsRounds round rounds registry last where
  advances := h.advances.trans hrest.advances
  le := (Nat.le_succ round).trans hrest.le
  roundOf_ge := by
    intro key hkey
    by_cases hpending : key ∈ after.graph.pending
    · exact (Nat.le_succ round).trans (hrest.roundOf_ge key hpending)
    · rw [hrest.advances.roundOf_eq hpending]
      exact (h.roundOf_eq key hkey hpending).ge
  events_eq := by
    have hlt := hrest.le
    have hcount : rounds + 1 - round = (rounds + 1 - (round + 1)) + 1 := by omega
    rw [hrest.events_eq, h.record_events hround hrest.advances hrest.roundOf_ge, hcount,
      List.range'_succ, List.flatMap_cons, List.append_assoc]

/-- Rounds that come to an end without failure record what the graph tells of them. -/
theorem roundsFrom_records {bound remaining : Nat} (hround : 1 ≤ round)
    (hdeclared : registry.graph.types.flatMap (·.declared) = registry.graph.propKeys)
    (hearlier : ∀ key, registry.graph.roundOf key < round)
    (hpending : registry.graph.pending ≠ [])
    (h : registry.roundsFrom bound remaining round = ⟨.ok rounds, last⟩) :
    RecordsRounds round rounds registry last := by
  induction remaining generalizing registry round with
  | zero =>
    rw [roundsFrom] at h
    cases hblame : unsettled? bound registry.graph with
    | some violation => simp [hblame] at h
    | none => exact absurd (unsettled?_eq_none_iff.1 hblame) hpending
  | succ remaining ih =>
    rw [roundsFrom] at h
    cases houtcome : registry.resolveRound round with
    | mk result middle =>
      rw [houtcome] at h
      cases result with
      | error violation => simp at h
      | ok more =>
        obtain ⟨-, -, hmore, -⟩ := resolveRound_ok hdeclared houtcome
        have hruns := resolveRound_runs hdeclared hearlier houtcome
        cases more with
        | true =>
          have hdeclared' : middle.graph.types.flatMap (·.declared) = middle.graph.propKeys :=
            Graph.declared_congr hruns.advances.fresh_eq hdeclared
          refine hruns.records_of_rest hround (ih (by omega) hdeclared' ?_ (hmore.1 rfl) h)
          intro key
          exact Nat.lt_succ_of_le (hruns.roundOf_le key)
        | false =>
          simp only [Bool.false_eq_true, ↓reduceIte, Outcome.mk.injEq, Except.ok.injEq] at h
          obtain ⟨rfl, rfl⟩ := h
          exact hruns.records hround (by simpa using hmore)

/-- So do all rounds, if nothing was settled before. -/
theorem resolveRounds_records
    (hdeclared : registry.graph.types.flatMap (·.declared) = registry.graph.propKeys)
    (hfresh : ∀ prop ∈ registry.graph.props, prop.resolution = .pending)
    (h : registry.resolveRounds = ⟨.ok rounds, last⟩) :
    last.events =
      registry.events ++ (List.range' 1 rounds).flatMap last.graph.roundEvents := by
  rw [resolveRounds] at h
  split at h
  · cases h
    simp
  · next hbound =>
    have hearlier (key : PropKey) : registry.graph.roundOf key < 1 := by
      have hle := (Graph.Timely.start hfresh).roundOf_le key
      simp only [Graph.stepped] at hle
      split at hle <;> omega
    have hrecords := roundsFrom_records (Nat.le_refl 1) hdeclared hearlier
      (fun hnone => hbound (by rw [hnone, List.length_nil])) h
    rw [hrecords.events_eq, Nat.add_sub_cancel]

end Registry

end Metamodel
