import Metamodel.Proofs.Blueprint.Checks
import Metamodel.Proofs.Graph.Navigation

/-!
# One step of a property

`Graph.attempt` looks at how far the resolution of other properties has come. In a healthy graph,
where whatever is settled is settled to what it declares, a property with something to settle to
is settled to it if the properties on its paths are ready, and else waits
(`Healthy.attempt_eq`); one that is settled had that to settle to (`Healthy.settles_of_attempt`).
As long as some pending property is grounded, some pending property is ready (`Healthy.progress`).
-/

namespace Metamodel

namespace Graph

variable {graph after : Graph} {prop : Property}

/-- Whether nothing on a path has to be waited for. -/
def ready (graph : Graph) : List PropKey → Bool
  | [] => true
  | [key] => !graph.awaitsAtEnd key
  | key :: rest => !graph.awaitsOnTheWay key && graph.ready rest

/-- The property at a key has something to settle to and does not have to wait for it. -/
def Ready (graph : Graph) (key : PropKey) : Prop :=
  ∃ prop settlement, graph.prop? key = some prop ∧ graph.Settles prop settlement ∧
    ∀ dependency ∈ settlement.dependencies, graph.ready dependency.segments = true

/-- Each property has still to be stepped, or it is settled to what it declares, and no chain of
waiting goes on for ever from it. -/
structure Healthy (graph : Graph) : Prop where
  regular : graph.Regular
  settled : ∀ {key : PropKey} {prop : Property}, graph.prop? key = some prop →
    prop.resolution = .pending ∨
      ∃ round target dependencies, prop.resolution = .resolved round target dependencies ∧
        graph.Settles prop ⟨target, dependencies⟩ ∧ graph.Grounded key

theorem ready_cons {key : PropKey} {rest : List PropKey} (hrest : rest ≠ []) :
    graph.ready (key :: rest) = (!graph.awaitsOnTheWay key && graph.ready rest) := by
  cases rest with
  | nil => exact absurd rfl hrest
  | cons next rest => rfl

/-- Paths that are followed with success are ready and lead where they should. -/
theorem Healthy.navigates_of_walkDependency (h : graph.Healthy) {path : String} {owner : TypeKey}
    {segments : List String} {keys : List PropKey} (hsegments : segments ≠ [])
    (hwalk : graph.walkDependency path owner segments = .ok (some keys)) :
    graph.Navigates owner segments keys ∧ graph.ready keys = true := by
  induction segments generalizing owner keys with
  | nil => exact absurd rfl hsegments
  | cons segment rest ih =>
    rw [walkDependency] at hwalk
    cases hfound : graph.findProp? owner segment with
    | none => simp [dependencyAt, hfound] at hwalk
    | some key =>
      obtain ⟨hmem, prop, hkey, rfl⟩ := findProp?_eq_some hfound
      simp only [dependencyAt, hfound] at hwalk
      split at hwalk
      · next hrest =>
        subst hrest
        cases hawaits : graph.awaitsAtEnd key with
        | true => simp [hawaits] at hwalk
        | false =>
          simp only [hawaits, Bool.false_eq_true, ↓reduceIte, Except.ok.injEq,
            Option.some.injEq] at hwalk
          subst hwalk
          exact ⟨.last hmem hkey, by simp [ready, hawaits]⟩
      · next hrest =>
        split at hwalk
        · simp at hwalk
        · next hawaits =>
          cases htarget : graph.target? key with
          | none => simp [htarget] at hwalk
          | some target =>
            simp only [htarget, Except.map_eq_ok_iff, Option.map_eq_some_iff] at hwalk
            obtain ⟨_, hwalk, keys, rfl, rfl⟩ := hwalk
            obtain ⟨hnavigates, hready⟩ := ih hrest hwalk
            -- what an inner segment links to is known, for it is settled
            have hlink : graph.link? prop = some target := by
              rw [target?, hkey, Option.bind_some] at htarget
              rcases h.settled hkey with hpending | ⟨_, _, _, hresolved, hsettles, -⟩
              · simp [hpending, Resolution.target?] at htarget
              · rw [hresolved] at htarget
                rw [← hsettles.target]
                exact htarget
            refine ⟨.step hmem hkey hlink hnavigates, ?_⟩
            rw [ready_cons hnavigates.ne_nil.2, hready]
            simpa using hawaits

/-- A path that can be followed is followed, unless something on it has to be waited for. -/
theorem Healthy.walkDependency_eq (h : graph.Healthy) (path : String) {owner : TypeKey}
    {segments : List String} {keys : List PropKey}
    (hnavigates : graph.Navigates owner segments keys) :
    graph.walkDependency path owner segments =
      .ok (if graph.ready keys then some keys else none) := by
  induction hnavigates with
  | @last owner key prop hmem hkey =>
    rw [walkDependency, dependencyAt, h.regular.findProp?_eq hmem hkey]
    cases hawaits : graph.awaitsAtEnd key <;> simp [ready, hawaits]
  | @step owner target key prop segments keys hmem hkey hlink hrest ih =>
    rw [walkDependency, dependencyAt, h.regular.findProp?_eq hmem hkey, ready_cons hrest.ne_nil.2]
    simp only [hrest.ne_nil.1, ↓reduceIte]
    cases hawaits : graph.awaitsOnTheWay key with
    | true => simp
    | false =>
      have htarget : graph.target? key = some target := by
        rw [target?, hkey, Option.bind_some]
        rcases h.settled hkey with hpending | ⟨_, _, _, hresolved, hsettles, -⟩
        · simp [awaitsOnTheWay, hkey, hpending, Resolution.isPending] at hawaits
        · rw [hresolved, ← hlink]
          exact hsettles.target
      simp only [Bool.false_eq_true, ↓reduceIte, htarget, ih, Except.map]
      cases graph.ready keys <;> simp

/-- Dependencies that are followed with success are ready and are those of the paths. -/
theorem Healthy.follows_of_followDependencies (h : graph.Healthy) {owner : TypeKey}
    {paths : List String} {dependencies : List PropPath}
    (hfollow : graph.followDependencies owner paths = .ok (some dependencies)) :
    List.Forall₂ (graph.Follows owner) paths dependencies ∧
      ∀ dependency ∈ dependencies, graph.ready dependency.segments = true := by
  induction paths generalizing dependencies with
  | nil =>
    simp only [followDependencies, Except.ok.injEq, Option.some.injEq] at hfollow
    subst hfollow
    exact ⟨.nil, by simp⟩
  | cons path rest ih =>
    rw [followDependencies] at hfollow
    split at hfollow
    · cases hfollow
    · cases hfollow
    · next segments hwalk =>
      simp only [Except.map_eq_ok_iff, Option.map_eq_some_iff] at hfollow
      obtain ⟨_, hrest, dependencies, rfl, rfl⟩ := hfollow
      have hsplit : Text.splitDots path ≠ [] := by
        simp [Text.splitDots, Text.dotSegments_ne_nil]
      obtain ⟨hnavigates, hready⟩ := h.navigates_of_walkDependency hsplit hwalk
      obtain ⟨hfollows, hall⟩ := ih hrest
      exact ⟨.cons ⟨rfl, hnavigates⟩ hfollows, by simpa [hready] using hall⟩

/-- Paths that can be followed are, unless something on one of them has to be waited for. -/
theorem Healthy.followDependencies_eq (h : graph.Healthy) {owner : TypeKey}
    {paths : List String} {dependencies : List PropPath}
    (hfollows : List.Forall₂ (graph.Follows owner) paths dependencies) :
    graph.followDependencies owner paths =
      .ok (if dependencies.all fun dependency => graph.ready dependency.segments
        then some dependencies else none) := by
  induction hfollows with
  | nil => rfl
  | @cons path dependency paths dependencies hfirst _ ih =>
    obtain ⟨raw, segments⟩ := dependency
    obtain ⟨rfl, hnavigates⟩ := hfirst
    rw [followDependencies, h.walkDependency_eq raw hnavigates]
    cases hready : graph.ready segments with
    | false => simp [hready]
    | true =>
      simp only [↓reduceIte, ih, Except.map, List.all_cons, hready, Bool.true_and]
      split <;> rfl

/-- In a regular graph what a property refers to is registered. -/
theorem Regular.linkedType?_eq (h : graph.Regular) {key : PropKey}
    (hkey : graph.prop? key = some prop) :
    graph.linkedType? prop = .ok (graph.find? prop.type.innermost) := by
  rw [linkedType?, h.reference hkey]
  cases hfound : graph.find? prop.type.innermost <;> simp [hfound]

/-- What is settled had that to settle to, and nothing to wait for. -/
theorem Healthy.settles_of_attempt (h : graph.Healthy) {key : PropKey}
    (hkey : graph.prop? key = some prop) {settlement : Settlement}
    (hattempt : graph.attempt prop = .ok (some settlement)) :
    graph.Settles prop settlement ∧
      ∀ dependency ∈ settlement.dependencies, graph.ready dependency.segments = true := by
  have hlinked := h.regular.linkedType?_eq hkey
  rw [attempt] at hattempt
  cases hkind : prop.kind with
  | sql text =>
    simp only [hkind, Except.ok.injEq, Option.some.injEq] at hattempt
    subst hattempt
    exact ⟨⟨by simp [link?, hkind], by simp [hkind, PropertyKind.paths], by simp [hkind]⟩, by simp⟩
  | scalar =>
    simp only [hkind, settleScalar, hlinked, Except.map_eq_ok_iff] at hattempt
    obtain ⟨_, hsettle, hsome⟩ := hattempt
    cases hsome
    cases hsettle
    exact ⟨⟨by simp [link?, hkind], by simp [hkind, PropertyKind.paths], by simp [hkind]⟩, by simp⟩
  | association =>
    simp only [hkind, settleAssociation, hlinked, Except.map_eq_ok_iff] at hattempt
    obtain ⟨_, hsettle, hsome⟩ := hattempt
    cases hsome
    cases hfound : graph.find? prop.type.innermost with
    | none => simp [hfound, bind, Except.bind, throw, throwThe, MonadExceptOf.throw] at hsettle
    | some type =>
      simp only [hfound, bind, Except.bind] at hsettle
      split at hsettle
      · next hentity =>
        cases hsettle
        have hlink : graph.link? prop = some type.key := by
          simp [link?, hkind, h.regular.keyOf?_eq, hfound]
        refine ⟨⟨hlink.symm, by simp [hkind, PropertyKind.paths], ?_⟩, by simp⟩
        exact fun _ => ⟨type, (h.regular.find?_eq_some_iff.1 hfound).1, hlink, hentity⟩
      · simp [throw, throwThe, MonadExceptOf.throw] at hsettle
  | expression paths =>
    simp only [hkind, Except.map_eq_ok_iff, Option.map_eq_some_iff] at hattempt
    obtain ⟨_, hfollow, dependencies, rfl, rfl⟩ := hattempt
    obtain ⟨hfollows, hready⟩ := h.follows_of_followDependencies hfollow
    exact ⟨⟨by simp [link?, hkind], by simpa [hkind, PropertyKind.paths] using hfollows,
      by simp [hkind]⟩, hready⟩

/-- A property that has something to settle to does, unless something on one of its paths has to
be waited for. -/
theorem Healthy.attempt_eq (h : graph.Healthy) {key : PropKey} (hkey : graph.prop? key = some prop)
    {settlement : Settlement} (hsettles : graph.Settles prop settlement) :
    graph.attempt prop =
      .ok (if settlement.dependencies.all fun dependency => graph.ready dependency.segments
        then some settlement else none) := by
  have hlinked := h.regular.linkedType?_eq hkey
  obtain ⟨target, dependencies⟩ := settlement
  obtain ⟨htarget, hfollows, hentity⟩ := hsettles
  dsimp only at htarget hfollows
  rw [attempt]
  cases hkind : prop.kind with
  | sql text =>
    simp only [hkind, PropertyKind.paths, List.forall₂_nil_left_iff] at hfollows
    simp [htarget, hfollows, link?, hkind]
  | scalar =>
    simp only [hkind, PropertyKind.paths, List.forall₂_nil_left_iff] at hfollows
    simp only [settleScalar, hlinked, bind, Except.bind, pure, Except.pure, Except.map]
    simp [htarget, hfollows, link?, hkind]
  | association =>
    simp only [hkind, PropertyKind.paths, List.forall₂_nil_left_iff] at hfollows
    obtain ⟨type, htype, hlink, hcategory⟩ := hentity hkind
    have hfound : graph.find? prop.type.innermost = some type := by
      have hkeyOf : graph.keyOf? prop.type.innermost = some type.key := by
        rw [← hlink, link?, hkind]
      obtain ⟨found, hfound, hname⟩ := h.regular.keyOf?_eq_some_iff.1 hkeyOf
      cases (h.regular.type?_key htype).symm.trans hfound
      exact h.regular.find?_eq_some_iff.2 ⟨htype, hname⟩
    simp only [settleAssociation, hlinked, hfound, bind, Except.bind, hcategory, ↓reduceIte, pure,
      Except.pure, Except.map]
    simp [htarget, hfollows, hlink]
  | expression paths =>
    have hnone : target = none := by simp [htarget, link?, hkind]
    have hfollow : graph.followDependencies prop.declaringType paths = _ :=
      h.followDependencies_eq (by simpa [hkind, PropertyKind.paths] using hfollows)
    simp only [hfollow, hnone, Except.map]
    split <;> rfl

/-! ### Waiting -/

/-- What a property waits for at the end of a path is what its settlement has there. -/
theorem Settles.exists_of_awaits (h : graph.Regular) {waiting awaited : PropKey}
    (hkey : graph.prop? waiting = some prop) {settlement : Settlement}
    (hsettles : graph.Settles prop settlement) (hawaits : graph.Awaits waiting awaited) :
    ∃ dependency ∈ settlement.dependencies, dependency.segments.getLast? = some awaited ∧
      ∃ other, graph.prop? awaited = some other ∧ other.kind.isExpression = true := by
  obtain ⟨prop', other, path, keys, hkey', hpath, hnavigates, hlast, hother, hkind⟩ := hawaits
  obtain rfl := Option.some.inj (hkey.symm.trans hkey')
  obtain ⟨index, hlt, rfl⟩ := List.getElem_of_mem hpath
  have hlt' := hsettles.dependencies.length_eq ▸ hlt
  have hfollows := hsettles.dependencies.get hlt hlt'
  refine ⟨_, List.getElem_mem hlt', ?_, other, hother, hkind⟩
  rw [← hlast, hnavigates.unique h hfollows.2]
  rfl

/-- On a path that is ready the property at the end is settled, if it is an expression. -/
theorem awaitsAtEnd_of_ready {keys : List PropKey} (hready : graph.ready keys = true)
    {last : PropKey} (hlast : keys.getLast? = some last) : graph.awaitsAtEnd last = false := by
  induction keys with
  | nil => simp at hlast
  | cons key rest ih =>
    cases rest with
    | nil =>
      obtain rfl : key = last := by simpa using hlast
      simpa [ready] using hready
    | cons next rest =>
      rw [ready_cons (by simp), Bool.and_eq_true] at hready
      exact ih hready.2 (by simpa using hlast)

/-- What is ready is grounded, for all that it waits for is settled. -/
theorem Healthy.grounded_of_ready (h : graph.Healthy) {key : PropKey}
    (hready : graph.Ready key) : graph.Grounded key := by
  obtain ⟨prop, settlement, hkey, hsettles, hall⟩ := hready
  refine .intro key fun awaited hawaits => ?_
  obtain ⟨dependency, hmem, hlast, other, hother, hkind⟩ :=
    hsettles.exists_of_awaits h.regular hkey hawaits
  have hend := awaitsAtEnd_of_ready (hall dependency hmem) hlast
  rcases h.settled hother with hpending | ⟨_, _, _, -, -, hgrounded⟩
  · simp [awaitsAtEnd, hother, hkind, hpending, Resolution.isResolved] at hend
  · exact hgrounded

/-- On a path that is not ready there is a pending property which either needs no others or is
the expression at the end. -/
theorem Healthy.exists_pending_of_not_ready (h : graph.Healthy) {owner : TypeKey}
    {segments : List String} {keys : List PropKey}
    (hnavigates : graph.Navigates owner segments keys) (hready : graph.ready keys = false) :
    ∃ key prop, graph.prop? key = some prop ∧ prop.resolution = .pending ∧
      (prop.kind.isExpression = false ∨ keys.getLast? = some key) := by
  induction hnavigates with
  | @last owner key prop hmem hkey =>
    -- only an expression is waited for at the end
    simp only [ready, Bool.not_eq_false', awaitsAtEnd, hkey, Option.any_some, Bool.and_eq_true,
      Bool.not_eq_true'] at hready
    refine ⟨key, prop, hkey, ?_, .inr rfl⟩
    rcases h.settled hkey with hpending | ⟨_, _, _, hresolved, -⟩
    · exact hpending
    · simp [hresolved, Resolution.isResolved] at hready
  | @step owner target key prop segments keys hmem hkey hlink hrest ih =>
    rw [ready_cons hrest.ne_nil.2, Bool.and_eq_false_iff] at hready
    rcases hready with hinner | hready
    · refine ⟨key, prop, hkey, ?_, .inl ?_⟩
      · rcases h.settled hkey with hpending | ⟨_, _, _, hresolved, -⟩
        · exact hpending
        · simp [awaitsOnTheWay, hkey, hresolved, Resolution.isPending] at hinner
      · cases hkind : prop.kind <;> simp_all [link?, PropertyKind.isExpression]
    · obtain ⟨key', prop', hkey', hpending, hlast⟩ := ih hready
      refine ⟨key', prop', hkey', hpending, hlast.imp_right fun hlast => ?_⟩
      rw [List.getLast?_cons, hlast]
      rfl

/-- As long as some pending property is grounded, some pending property is grounded and ready. -/
theorem Healthy.progress (h : graph.Healthy)
    (hall : graph.Settleable) {key : PropKey}
    (hgrounded : graph.Grounded key) (hkey : graph.prop? key = some prop)
    (hpending : prop.resolution = .pending) :
    ∃ next prop', graph.prop? next = some prop' ∧ prop'.resolution = .pending ∧
      graph.Ready next := by
  have hmem {key : PropKey} {prop : Property} (hkey : graph.prop? key = some prop) :
      prop ∈ graph.props := List.mem_of_getElem? hkey
  induction hgrounded generalizing prop with
  | intro key _ ih =>
    obtain ⟨settlement, hsettles⟩ := hall prop (hmem hkey)
    by_cases hready : ∀ dependency ∈ settlement.dependencies,
        graph.ready dependency.segments = true
    · exact ⟨key, prop, hkey, hpending, prop, settlement, hkey, hsettles, hready⟩
    · simp only [not_forall] at hready
      obtain ⟨dependency, hdependency, hunready⟩ := hready
      obtain ⟨index, hlt', rfl⟩ := List.getElem_of_mem hdependency
      have hlt := hsettles.dependencies.length_eq ▸ hlt'
      have hfollows := hsettles.dependencies.get hlt hlt'
      obtain ⟨next, prop', hnext, hpending', hkind⟩ :=
        h.exists_pending_of_not_ready hfollows.2 (by simpa using hunready)
      -- a pending property that is no expression is ready; an expression is waited for
      cases hexpression : prop'.kind.isExpression with
      | false =>
        obtain ⟨settlement', hsettles'⟩ := hall prop' (hmem hnext)
        refine ⟨next, prop', hnext, hpending', prop', settlement', hnext, hsettles', ?_⟩
        have hnone := hsettles'.dependencies
        cases hprop' : prop'.kind <;> simp_all [PropertyKind.paths, PropertyKind.isExpression]
      | true =>
        have hlast := hkind.resolve_left (by simp [hexpression])
        refine ih next ⟨prop, prop', _, _, hkey, List.getElem_mem hlt, hfollows.2, hlast, hnext,
          hexpression⟩ hnext hpending'

end Graph

end Metamodel
