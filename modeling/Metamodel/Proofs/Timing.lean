import Metamodel.Proofs.Numbering
import Metamodel.Proofs.Settlement

/-!
# The round of every property

A step sees what was settled before it: in an earlier round, or in the same round at a smaller key.
So an expression is settled in the first round in which everything it waits for can be seen, and
anything else in the first round of all (`compile_rounds`). `Graph.Timely` says this of a graph in
the middle of a round. What is pending there has been stepped in vain, for something that it waits
for was not to be seen in its last step; this is the half that makes rounds exact and not only late
enough.
-/

namespace Metamodel

namespace Graph

variable {graph before after other : Graph} {key : PropKey} {prop : Property} {round index : Nat}

/-! ### What an expression waits for -/

/-- The round in which the property at a key was settled, zero if it was not. -/
def roundOf (graph : Graph) (key : PropKey) : Nat :=
  ((graph.prop? key).bind (·.resolution.round?)).getD 0

/-- Whether the property at a key is an expression. -/
def isExpression (graph : Graph) (key : PropKey) : Bool :=
  (graph.prop? key).any (·.kind.isExpression)

/-- What has to be waited for along a path: whatever is on the way, and what is at the end if it
is an expression. -/
def waitsOn (graph : Graph) (segments : List PropKey) : List PropKey :=
  segments.dropLast ++ segments.getLast?.toList.filter graph.isExpression

/-- What has to be waited for along some dependencies. -/
def waitedFor (graph : Graph) (dependencies : List PropPath) : List PropKey :=
  dependencies.flatMap fun dependency => graph.waitsOn dependency.segments

/-- The first round in which the step of the property at a key sees another one settled: the same
round if that is stepped before, and otherwise the next. -/
def arrival (graph : Graph) (key waited : PropKey) : Nat :=
  graph.roundOf waited + if key.index < waited.index then 1 else 0

theorem isExpression_congr (h : graph.fresh = other.fresh) :
    graph.isExpression = other.isExpression := by
  have hfresh (graph : Graph) (key : PropKey) :
      graph.isExpression key = (graph.fresh.prop? key).any (·.kind.isExpression) := by
    rw [isExpression, prop?_fresh]
    cases graph.prop? key <;> rfl
  funext key
  rw [hfresh, h, ← hfresh]

theorem waitedFor_congr (h : graph.fresh = other.fresh) : graph.waitedFor = other.waitedFor := by
  funext dependencies
  simp only [waitedFor, waitsOn, isExpression_congr h]

/-- At the end of a path an expression is waited for while it is pending. -/
theorem Healthy.awaitsAtEnd_iff (h : graph.Healthy) :
    graph.awaitsAtEnd key = true ↔ graph.isExpression key = true ∧ key ∈ graph.pending := by
  rw [mem_pending, awaitsAtEnd, isExpression]
  cases hkey : graph.prop? key with
  | none => simp
  | some prop =>
    rcases h.settled hkey with hpending | ⟨_, _, _, hresolved, -⟩
    · simp [hpending, Resolution.isResolved]
    · simp [hresolved, Resolution.isResolved]

/-- A path is ready when nothing that has to be waited for along it is pending. -/
theorem Healthy.ready_iff (h : graph.Healthy) {segments : List PropKey} :
    graph.ready segments = true ↔ ∀ waited ∈ graph.waitsOn segments, waited ∉ graph.pending := by
  induction segments with
  | nil => simp [ready, waitsOn]
  | cons key rest ih =>
    cases rest with
    | nil =>
      rw [ready, Bool.not_eq_true', ← Bool.not_eq_true, h.awaitsAtEnd_iff]
      simp [waitsOn]
    | cons next rest =>
      have hcons : graph.waitsOn (key :: next :: rest) = key :: graph.waitsOn (next :: rest) := by
        simp [waitsOn]
      rw [ready_cons (by simp), Bool.and_eq_true, ih, hcons, List.forall_mem_cons,
        Bool.not_eq_true', ← Bool.not_eq_true, awaitsOnTheWay_iff]

/-- Dependencies are ready when nothing that has to be waited for along them is pending. -/
theorem Healthy.all_ready_iff (h : graph.Healthy) {dependencies : List PropPath} :
    (∀ dependency ∈ dependencies, graph.ready dependency.segments = true) ↔
      ∀ waited ∈ graph.waitedFor dependencies, waited ∉ graph.pending := by
  simp only [h.ready_iff, waitedFor, List.mem_flatMap]
  constructor
  · intro hall waited hwaited
    obtain ⟨dependency, hdependency, hmem⟩ := hwaited
    exact hall dependency hdependency waited hmem
  · intro hall dependency hdependency waited hmem
    exact hall waited ⟨dependency, hdependency, hmem⟩

/-! ### The middle of a round -/

/-- The last round in which the property at a key was stepped, when a round has come to an
index. -/
def stepped (round index : Nat) (key : PropKey) : Nat :=
  if key.index < index then round else round - 1

/-- The property at a key, with some dependencies, was settled as soon as it could be: it had
nothing more to wait for, and had to wait for the last of it. -/
structure Prompt (graph : Graph) (key : PropKey) (dependencies : List PropPath) : Prop where
  settled : ∀ waited ∈ graph.waitedFor dependencies, waited ∉ graph.pending ∧ waited ≠ key
  max?_eq : (1 :: (graph.waitedFor dependencies).map (graph.arrival key)).max? =
    some (graph.roundOf key)

/-- The property at a key, with some dependencies, is stepped in a round in vain: something that it
waits for cannot be seen yet. -/
def Misses (graph : Graph) (round : Nat) (key : PropKey) (dependencies : List PropPath) : Prop :=
  ∃ waited ∈ graph.waitedFor dependencies,
    waited ∈ graph.pending ∨ round < graph.arrival key waited

/-- In the middle of a round every property was settled as soon as it could be, and what is pending
was stepped in vain. -/
structure Timely (graph : Graph) (round index : Nat) : Prop where
  roundOf_le : ∀ key, graph.roundOf key ≤ stepped round index key
  prompt : ∀ {key : PropKey} {prop : Property}, graph.prop? key = some prop →
    key ∉ graph.pending → graph.Prompt key prop.resolution.dependencies
  misses : ∀ {key : PropKey} {prop : Property} {settlement : Settlement},
    graph.prop? key = some prop → key ∈ graph.pending → graph.Settles prop settlement →
    1 ≤ stepped round index key →
    graph.Misses (stepped round index key) key settlement.dependencies

theorem stepped_succ_of_ne (h : key.index ≠ index) :
    stepped round (index + 1) key = stepped round index key := by
  have hiff : key.index < index + 1 ↔ key.index < index := by omega
  simp only [stepped, hiff]

/-- Before the first round everything is pending. -/
theorem Timely.start (h : ∀ prop ∈ graph.props, prop.resolution = .pending) :
    graph.Timely 1 0 where
  roundOf_le key := by
    cases hkey : graph.prop? key with
    | none => simp [roundOf, hkey]
    | some prop => simp [roundOf, hkey, h prop (List.mem_of_getElem? hkey), Resolution.round?]
  prompt hkey hsettled :=
    absurd (mem_pending.2 ⟨_, hkey, h _ (List.mem_of_getElem? hkey)⟩) hsettled
  misses _ _ _ hstepped := by simp [stepped] at hstepped

/-- The end of a round is the beginning of the next. -/
theorem Timely.next (h : graph.Timely round graph.props.length) : graph.Timely (round + 1) 0 := by
  have hstepped {key : PropKey} {prop : Property} (hkey : graph.prop? key = some prop) :
      stepped (round + 1) 0 key = stepped round graph.props.length key := by
    have hlt := (List.getElem?_eq_some_iff.1 hkey).1
    simp [stepped, hlt]
  refine ⟨?_, h.prompt, ?_⟩
  · intro key
    cases hkey : graph.prop? key with
    | none => simp [roundOf, hkey]
    | some prop =>
      rw [hstepped hkey]
      exact h.roundOf_le key
  · intro key prop settlement hkey hpending hsettles
    rw [hstepped hkey]
    exact h.misses hkey hpending hsettles

theorem stepped_le_succ (round index : Nat) (key : PropKey) :
    stepped round index key ≤ stepped round (index + 1) key := by
  simp only [stepped]
  split <;> split <;> omega

/-- A step that settles nothing leaves the graph timely, if the property at its key is not pending
or waits for something that is. -/
theorem Timely.skip (h : graph.Timely round index)
    (hwaits : ∀ prop settlement, graph.prop? ⟨index⟩ = some prop → ⟨index⟩ ∈ graph.pending →
      graph.Settles prop settlement →
      ∃ waited ∈ graph.waitedFor settlement.dependencies, waited ∈ graph.pending) :
    graph.Timely round (index + 1) := by
  refine ⟨?_, h.prompt, ?_⟩
  · intro key
    exact (h.roundOf_le key).trans (stepped_le_succ round index key)
  · intro key prop settlement hkey hpending hsettles hstepped
    by_cases hindex : key.index = index
    · subst hindex
      obtain ⟨waited, hwaited, hmem⟩ := hwaits prop settlement hkey hpending hsettles
      exact ⟨waited, hwaited, .inl hmem⟩
    · rw [stepped_succ_of_ne hindex] at hstepped ⊢
      exact h.misses hkey hpending hsettles hstepped

/-- What is settled now could not have been settled before: this is the first round in which all
that it waits for can be seen. -/
theorem Timely.max?_arrivals (h : graph.Timely round index) (hround : 1 ≤ round)
    (hkey : graph.prop? ⟨index⟩ = some prop) (hpending : ⟨index⟩ ∈ graph.pending)
    {settlement : Settlement} (hsettles : graph.Settles prop settlement)
    (hready : ∀ waited ∈ graph.waitedFor settlement.dependencies, waited ∉ graph.pending) :
    (1 :: (graph.waitedFor settlement.dependencies).map (graph.arrival ⟨index⟩)).max? =
      some round := by
  have harrival : ∀ waited ∈ graph.waitedFor settlement.dependencies,
      graph.arrival ⟨index⟩ waited ≤ round := by
    intro waited hwaited
    have hle := h.roundOf_le waited
    simp only [stepped] at hle
    simp only [arrival]
    split <;> split at hle <;> omega
  rw [List.max?_eq_some_iff]
  constructor
  · by_cases hfirst : round = 1
    · exact hfirst ▸ List.mem_cons_self
    · -- in the round before, the step of the property was in vain
      have hbefore : stepped round index ⟨index⟩ = round - 1 := by simp [stepped]
      obtain ⟨waited, hwaited, hseen⟩ := h.misses hkey hpending hsettles (by omega)
      have hlate := hseen.resolve_left (hready waited hwaited)
      have hle := harrival waited hwaited
      have heq : graph.arrival ⟨index⟩ waited = round := by omega
      exact List.mem_cons_of_mem _ (List.mem_map.2 ⟨waited, hwaited, heq⟩)
  · intro arrived harrived
    rcases List.mem_cons.1 harrived with rfl | hmem
    · exact hround
    · obtain ⟨waited, hwaited, rfl⟩ := List.mem_map.1 hmem
      exact harrival waited hwaited

/-- What is no longer pending keeps its round. -/
theorem Advances.roundOf_eq (h : before.Advances after) (hkey : key ∉ before.pending) :
    after.roundOf key = before.roundOf key := by
  rw [roundOf, roundOf, h.prop?_eq hkey]

/-- What is settled is not what is pending. -/
theorem ne_of_mem_pending {waited : PropKey} (hpending : key ∈ graph.pending)
    (hsettled : waited ∉ graph.pending) : waited ≠ key := by
  intro hsame
  exact hsettled (hsame ▸ hpending)

section SetResolution

variable {target : Option TypeKey} {dependencies : List PropPath}

/-- A property that is settled is no longer pending, and all others are as before. -/
theorem mem_pending_settled {waited : PropKey} :
    waited ∈ (graph.setResolution key (.resolved round target dependencies)).pending ↔
      waited ∈ graph.pending ∧ waited ≠ key := by
  rw [mem_pending, mem_pending, prop?_setResolution]
  by_cases hsame : key = waited
  · rw [if_pos hsame]
    constructor
    · intro hpending
      obtain ⟨prop, hprop, hresolution⟩ := hpending
      obtain ⟨_, -, rfl⟩ := Option.map_eq_some_iff.1 hprop
      cases hresolution
    · intro hpending
      exact absurd hsame.symm hpending.2
  · rw [if_neg hsame]
    exact ⟨fun hpending => ⟨hpending, Ne.symm hsame⟩, fun hpending => hpending.1⟩

/-- A property that is settled has the round in which it was, and all others have theirs. -/
theorem roundOf_settled (hkey : graph.prop? key = some prop) (waited : PropKey) :
    (graph.setResolution key (.resolved round target dependencies)).roundOf waited =
      if key = waited then round else graph.roundOf waited := by
  rw [roundOf, prop?_setResolution]
  split
  · next hsame =>
    subst hsame
    simp [hkey, Resolution.round?]
  · rfl

/-- When one property is settled the others see what else there is as before. -/
theorem arrival_settled (hkey : graph.prop? key = some prop) {waited : PropKey}
    (hne : waited ≠ key) (waiting : PropKey) :
    (graph.setResolution key (.resolved round target dependencies)).arrival waiting waited =
      graph.arrival waiting waited := by
  rw [arrival, arrival, roundOf_settled hkey, if_neg (Ne.symm hne)]

@[simp]
theorem waitedFor_setResolution (resolution : Resolution) :
    (graph.setResolution key resolution).waitedFor = graph.waitedFor :=
  waitedFor_congr (by simp)

/-- What is ready arrives when it did, whatever pending property is settled. -/
theorem max?_arrivals_settled (hkey : graph.prop? key = some prop) (hpending : key ∈ graph.pending)
    {paths : List PropPath} (hready : ∀ waited ∈ graph.waitedFor paths, waited ∉ graph.pending)
    (waiting : PropKey) :
    (1 :: (graph.waitedFor paths).map
      ((graph.setResolution key (.resolved round target dependencies)).arrival waiting)).max? =
      (1 :: (graph.waitedFor paths).map (graph.arrival waiting)).max? := by
  congr 2
  refine List.map_congr_left fun waited hwaited => ?_
  exact arrival_settled hkey (ne_of_mem_pending hpending (hready waited hwaited)) waiting

/-- What was settled promptly stays so when another property is settled. -/
theorem Prompt.of_settled (hkey : graph.prop? key = some prop) (hpending : key ∈ graph.pending)
    {earlier : PropKey} {paths : List PropPath} (hne : earlier ≠ key)
    (h : graph.Prompt earlier paths) :
    (graph.setResolution key (.resolved round target dependencies)).Prompt earlier paths := by
  have hready : ∀ waited ∈ graph.waitedFor paths, waited ∉ graph.pending :=
    fun waited hwaited => (h.settled waited hwaited).1
  constructor
  · rw [waitedFor_setResolution]
    intro waited hwaited
    exact ⟨fun hmem => hready waited hwaited (mem_pending_settled.1 hmem).1,
      (h.settled waited hwaited).2⟩
  · rw [waitedFor_setResolution, max?_arrivals_settled hkey hpending hready, h.max?_eq,
      roundOf_settled hkey, if_neg (Ne.symm hne)]

/-- A property is settled promptly in the first round in which all that it waits for is seen. -/
theorem Prompt.settle (hkey : graph.prop? key = some prop) (hpending : key ∈ graph.pending)
    (hready : ∀ waited ∈ graph.waitedFor dependencies, waited ∉ graph.pending)
    (hmax : (1 :: (graph.waitedFor dependencies).map (graph.arrival key)).max? = some round) :
    (graph.setResolution key (.resolved round target dependencies)).Prompt key dependencies := by
  constructor
  · rw [waitedFor_setResolution]
    intro waited hwaited
    exact ⟨fun hmem => hready waited hwaited (mem_pending_settled.1 hmem).1,
      ne_of_mem_pending hpending (hready waited hwaited)⟩
  · rw [waitedFor_setResolution, max?_arrivals_settled hkey hpending hready, hmax,
      roundOf_settled hkey, if_pos rfl]

/-- What a property missed it still misses when another one is settled too late for it. -/
theorem Misses.of_settled (hkey : graph.prop? key = some prop) {waiting : PropKey} {last : Nat}
    {paths : List PropPath} (hlate : last < round + if waiting.index < key.index then 1 else 0)
    (h : graph.Misses last waiting paths) :
    (graph.setResolution key (.resolved round target dependencies)).Misses last waiting paths := by
  obtain ⟨waited, hwaited, hseen⟩ := h
  refine ⟨waited, by rwa [waitedFor_setResolution], ?_⟩
  by_cases hself : waited = key
  · right
    rwa [hself, arrival, roundOf_settled hkey, if_pos rfl]
  · rw [mem_pending_settled, arrival_settled hkey hself]
    exact hseen.imp_left fun hpending => ⟨hpending, hself⟩

end SetResolution

/-- A step that settles a property whose dependencies are ready leaves the graph timely. -/
theorem Timely.settle (h : graph.Timely round index) (hround : 1 ≤ round)
    (hkey : graph.prop? ⟨index⟩ = some prop) (hpending : ⟨index⟩ ∈ graph.pending)
    {settlement : Settlement} (hsettles : graph.Settles prop settlement)
    (hready : ∀ waited ∈ graph.waitedFor settlement.dependencies, waited ∉ graph.pending) :
    (graph.setResolution ⟨index⟩
      (.resolved round settlement.target settlement.dependencies)).Timely round (index + 1) where
  roundOf_le key := by
    rw [roundOf_settled hkey]
    split
    · next hsame =>
      subst hsame
      simp [stepped]
    · exact (h.roundOf_le key).trans (stepped_le_succ round index key)
  prompt := by
    intro key prop' hkey' hsettled
    rw [prop?_setResolution] at hkey'
    by_cases hsame : (⟨index⟩ : PropKey) = key
    · subst hsame
      rw [if_pos rfl, hkey, Option.map_some, Option.some.injEq] at hkey'
      subst hkey'
      exact .settle hkey hpending hready
        (h.max?_arrivals hround hkey hpending hsettles hready)
    · rw [if_neg hsame] at hkey'
      have hearlier : key ∉ graph.pending := by
        intro hmem
        exact hsettled (mem_pending_settled.2 ⟨hmem, Ne.symm hsame⟩)
      exact (h.prompt hkey' hearlier).of_settled hkey hpending (Ne.symm hsame)
  misses := by
    intro key prop' settlement' hkey' hmem hsettles' hstepped
    obtain ⟨hearlier, hne⟩ := mem_pending_settled.1 hmem
    rw [prop?_setResolution, if_neg (Ne.symm hne)] at hkey'
    have hindex : key.index ≠ index := by
      intro heq
      exact hne (congrArg PropKey.mk heq)
    rw [stepped_succ_of_ne hindex] at hstepped ⊢
    refine (h.misses hkey' hearlier (hsettles'.congr (by simp) rfl) hstepped).of_settled hkey ?_
    -- the last step of any other property came before this one
    simp only [stepped]
    split <;> omega

end Graph

namespace Registry

variable {registry after : Registry} {round index : Nat} {key : PropKey} {outcome : Outcome Bool}

/-! ### Steps and rounds -/

theorem Numbers.roundOf_eq (h : Numbers round registry after)
    (hbefore : key ∈ registry.graph.pending) (hafter : key ∉ after.graph.pending) :
    after.graph.roundOf key = round := by
  obtain ⟨prop, hprop, hround⟩ := h.exists_prop? hbefore hafter
  rw [Graph.roundOf, hprop, Option.bind_some, hround, Option.getD_some]

/-- A step that does not fail leaves the graph timely. -/
theorem Step.timely (hstep : Step round ⟨index⟩ registry outcome) {yes : Bool}
    (hresult : outcome.result = .ok yes) (hhealthy : registry.graph.Healthy) (hround : 1 ≤ round)
    (h : registry.graph.Timely round index) :
    outcome.registry.graph.Timely round (index + 1) := by
  cases hstep with
  | idle hidle => exact h.skip fun _ _ _ hpending => absurd hpending hidle
  | waits hkey hpending hattempt =>
    refine h.skip fun prop' settlement hkey' _ hsettles => ?_
    obtain rfl := Option.some.inj (hkey.symm.trans hkey')
    -- otherwise the attempt would have given the settlement
    by_contra hnone
    simp only [not_exists, not_and] at hnone
    have hready := List.all_eq_true.2 (hhealthy.all_ready_iff.2 hnone)
    rw [hhealthy.attempt_eq hkey hsettles, if_pos hready] at hattempt
    cases hattempt
  | settles hkey hpending hattempt =>
    obtain ⟨hsettles, hready⟩ := hhealthy.settles_of_attempt hkey hattempt
    exact h.settle hround hkey (Graph.mem_pending.2 ⟨_, hkey, hpending⟩) hsettles
      (hhealthy.all_ready_iff.1 hready)
  | fails _ _ _ => cases hresult

/-- So do steps one after the other. -/
theorem anyStep_timely (hround : 1 ≤ round) {count : Nat} {yes : Bool}
    (h : anyStep (resolveProperty round) ((List.range' index count).map PropKey.mk) registry =
      ⟨.ok yes, after⟩)
    (hhealthy : registry.graph.Healthy) (htimely : registry.graph.Timely round index) :
    after.graph.Timely round (index + count) := by
  induction count generalizing registry index yes with
  | zero =>
    cases h
    exact htimely
  | succ count ih =>
    have hstep := resolveProperty_step round ⟨index⟩ registry
    rw [List.range'_succ, List.map_cons, anyStep] at h
    cases houtcome : resolveProperty round ⟨index⟩ registry with
    | mk result middle =>
      rw [houtcome] at h hstep
      cases result with
      | error violation => cases h
      | ok first =>
        have hmiddle := hstep.timely rfl hhealthy hround htimely
        have hhealthy' := Graph.healthy_of_proceeds (hstep.proceeds rfl) hhealthy
        cases hothers : anyStep (resolveProperty round)
            ((List.range' (index + 1) count).map PropKey.mk) middle with
        | mk result last =>
          simp only [hothers, Outcome.mk.injEq, Except.map_eq_ok_iff] at h
          obtain ⟨⟨others, rfl, -⟩, rfl⟩ := h
          have hlast := ih hothers hhealthy' hmiddle
          rwa [Nat.add_assoc, Nat.add_comm 1 count] at hlast

/-- A round that does not fail leaves the graph timely, and what it settles has its number. -/
theorem resolveRound_timely (hround : 1 ≤ round) (hhealthy : registry.graph.Healthy)
    (htimely : registry.graph.Timely round 0) {more : Bool}
    (h : registry.resolveRound round = ⟨.ok more, after⟩) :
    after.graph.Timely round after.graph.props.length ∧
      ∀ key ∈ registry.graph.pending, key ∉ after.graph.pending →
        after.graph.roundOf key = round := by
  have hnumbers := resolveRound_numbers round registry
  rw [h] at hnumbers
  refine ⟨?_, fun key => hnumbers.roundOf_eq⟩
  have hlength : registry.graph.props.length = after.graph.props.length := by
    simpa [Graph.propKeys] using
      congrArg List.length (Graph.propKeys_congr hnumbers.advances.fresh_eq)
  rw [resolveRound_eq hhealthy.regular.declared, Graph.propKeys, List.range_eq_range'] at h
  have hsteps := anyStep_timely hround h hhealthy htimely
  rwa [Nat.zero_add, hlength] at hsteps

/-- Rounds that come to an end without failure leave a graph in which everything was settled as soon
as it could be, and something in the last round. -/
theorem roundsFrom_timely {bound remaining rounds : Nat} {last : Registry} (hround : 1 ≤ round)
    (hhealthy : registry.graph.Healthy) (htimely : registry.graph.Timely round 0)
    (hpending : registry.graph.pending ≠ [])
    (h : registry.roundsFrom bound remaining round = ⟨.ok rounds, last⟩) :
    last.graph.Timely rounds last.graph.props.length ∧
      ∃ key ∈ last.graph.propKeys, last.graph.roundOf key = rounds := by
  induction remaining generalizing registry round with
  | zero =>
    rw [roundsFrom] at h
    cases hblame : unsettled? bound registry.graph with
    | some violation => simp [hblame] at h
    | none => exact absurd (unsettled?_eq_none_iff.1 hblame) hpending
  | succ remaining ih =>
    rw [roundsFrom] at h
    cases houtcome : registry.resolveRound round with
    | mk result middle =>
      rw [houtcome] at h
      cases result with
      | error violation => simp at h
      | ok more =>
        obtain ⟨hresolves, hproceeds, hmore, -⟩ :=
          resolveRound_ok hhealthy.regular.declared houtcome
        obtain ⟨hmiddle, hsettled⟩ := resolveRound_timely hround hhealthy htimely houtcome
        cases more with
        | true =>
          let finished := middle.record (.roundFinished round middle.graph.pending.length)
          have hhealthy' : finished.graph.Healthy := Graph.healthy_of_proceeds hproceeds hhealthy
          have htimely' : finished.graph.Timely (round + 1) 0 := hmiddle.next
          exact ih (by omega) hhealthy' htimely' (hmore.1 rfl) h
        | false =>
          simp only [Bool.false_eq_true, ↓reduceIte, Outcome.mk.injEq, Except.ok.injEq] at h
          obtain ⟨rfl, rfl⟩ := h
          have hnone : middle.graph.pending = [] := by simpa using hmore
          -- what was pending before the last round was settled in it
          obtain ⟨key, hkey⟩ := List.exists_mem_of_ne_nil _ hpending
          have hmem := (List.mem_filter.1 hkey).1
          rw [Graph.propKeys_congr hresolves.advances.fresh_eq] at hmem
          exact ⟨hmiddle, key, hmem, hsettled key hkey (by simp [hnone])⟩

end Registry

section Compile

variable {source : Source} {config : Config} {model : Model}

/-- A compilation leaves no property, or a graph in which everything was settled as soon as it could
be, and something in the last round. -/
theorem compile_timely (h : compile source config = .ok model) :
    model.graph.props = [] ∧ model.rounds = 0 ∨
      model.graph.Timely model.rounds model.graph.props.length ∧
        ∃ key ∈ model.graph.propKeys, model.graph.roundOf key = model.rounds := by
  obtain ⟨registry, registered⟩ := exists_registered_of_compile h
  have hcomplete := Registry.resolveAll_complete registered
  obtain ⟨hresult, hgraph⟩ := (compile_eq_ok_iff registered).1 h
  have hrounds : registry.resolveRounds = ⟨.ok model.rounds, registry.resolveRounds.registry⟩ := by
    rw [← hresult]
  generalize registry.resolveRounds.registry = last at hrounds hgraph
  rw [Registry.resolveRounds] at hrounds
  split at hrounds
  · next hbound =>
    left
    simp only [Outcome.mk.injEq, Except.ok.injEq] at hrounds
    obtain ⟨hzero, rfl⟩ := hrounds
    rw [hcomplete.pending_eq, Graph.propKeys, List.length_map, List.length_range,
      List.length_eq_zero_iff, hgraph] at hbound
    exact ⟨hbound, hzero.symm⟩
  · next hbound =>
    right
    rw [← hgraph]
    refine Registry.roundsFrom_timely (Nat.le_refl 1) hcomplete.healthy
      (.start hcomplete.pending) ?_ hrounds
    intro hnone
    exact hbound (by rw [hnone, List.length_nil])

/-- In a compiled graph each property has its exact round. One that is no expression is settled in
the first. An expression is settled as soon as it sees all that it waits for, namely whatever is on
the way along its dependencies and the expressions at their ends: in the round of the last of
these, or in the next if that comes later in the order of registration. There are as many rounds as
the last property takes. -/
theorem compile_rounds (h : compile source config = .ok model) :
    (∀ key prop, model.graph.prop? key = some prop →
      key ∉ model.graph.waitedFor prop.resolution.dependencies ∧
      ∃ round, prop.resolution.round? = some round ∧
        (prop.kind.isExpression = false → round = 1) ∧
        (1 :: (model.graph.waitedFor prop.resolution.dependencies).map
          (model.graph.arrival key)).max? = some round) ∧
    model.rounds = (model.graph.propKeys.map model.graph.roundOf).max?.getD 0 := by
  obtain ⟨registry, registered⟩ := exists_registered_of_compile h
  obtain ⟨-, hhealthy, hpending⟩ := compile_settled registered h
  rcases compile_timely h with ⟨hnone, hzero⟩ | ⟨htimely, hlast⟩
  · constructor
    · intro key prop hkey
      rw [Graph.prop?, hnone] at hkey
      cases hkey
    · rw [hzero, Graph.propKeys, hnone]
      rfl
  · constructor
    · intro key prop hkey
      obtain ⟨round, target, dependencies, hresolved, hsettles, -⟩ :=
        hhealthy.resolved hpending hkey
      have hround : model.graph.roundOf key = round := by
        rw [Graph.roundOf, hkey, Option.bind_some, hresolved, Resolution.round?, Option.getD_some]
      have hprompt := htimely.prompt hkey (by rw [hpending]; exact List.not_mem_nil)
      have hmax := hprompt.max?_eq
      rw [hround] at hmax
      refine ⟨fun hself => (hprompt.settled key hself).2 rfl, round, ?_, ?_, hmax⟩
      · rw [hresolved, Resolution.round?]
      · intro hkind
        -- only expressions have dependencies
        have hnone : dependencies = [] := by
          have hfollows := hsettles.dependencies
          cases hprop : prop.kind <;>
            simp_all [PropertyKind.paths, PropertyKind.isExpression]
        rw [hresolved, Resolution.dependencies, hnone] at hmax
        exact (Option.some.inj hmax).symm
    · have hmax : (model.graph.propKeys.map model.graph.roundOf).max? = some model.rounds := by
        obtain ⟨key, hkey, hround⟩ := hlast
        rw [List.max?_eq_some_iff]
        refine ⟨List.mem_map.2 ⟨key, hkey, hround⟩, fun round hmem => ?_⟩
        obtain ⟨other, -, rfl⟩ := List.mem_map.1 hmem
        refine (htimely.roundOf_le other).trans ?_
        simp only [Graph.stepped]
        split <;> omega
      rw [hmax, Option.getD_some]

end Compile

theorem compile_rounds_orders :
    ∃ model, compile orders {} = .ok model ∧
      model.graph.props.map (·.resolution.round?) = [some 1, some 2, some 1, some 1, some 1] ∧
      ∃ title, model.graph.prop? ⟨1⟩ = some title ∧
        model.graph.waitedFor title.resolution.dependencies = [⟨2⟩] ∧
        (1 :: [⟨2⟩].map (model.graph.arrival ⟨1⟩)).max? = some 2 ∧
        model.rounds = (model.graph.propKeys.map model.graph.roundOf).max?.getD 0 := by
  have hmodel : (compile orders {}).map (fun model =>
      (model.graph.props.map (·.resolution.round?),
        (model.graph.prop? ⟨1⟩).map fun title =>
          model.graph.waitedFor title.resolution.dependencies)) =
      .ok ([some 1, some 2, some 1, some 1, some 1], some [⟨2⟩]) := by decide +kernel
  rw [Except.map_eq_ok_iff] at hmodel
  obtain ⟨model, hmodel, hpair⟩ := hmodel
  obtain ⟨hrounds, htitle⟩ := Prod.mk.inj hpair
  obtain ⟨title, hkey, hwaited⟩ := Option.map_eq_some_iff.1 htitle
  obtain ⟨hexact, hlast⟩ := compile_rounds hmodel
  -- the customer comes after the title, so the title sees it in the second round only
  obtain ⟨-, round, hround, -, hmax⟩ := hexact ⟨1⟩ title hkey
  have htwo : round = 2 := by
    have hget := congrArg (·[1]?) hrounds
    simp only [List.getElem?_map] at hget
    rw [show model.graph.props[1]? = some title from hkey, Option.map_some, hround] at hget
    simpa using hget
  rw [hwaited, htwo] at hmax
  exact ⟨model, hmodel, hrounds, title, hkey, hwaited, hmax, hlast⟩

end Metamodel
