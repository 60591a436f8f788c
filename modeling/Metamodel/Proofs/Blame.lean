import Metamodel.Proofs.Ascent
import Metamodel.Proofs.WellFormed

/-!
# Whom failing calls blame

Many checks can fail in a call, on many types that it passes on its way, and each names who is to
blame. No member is ever blamed together with a type that merely inherits it, links to it or waits
for it: the type is declared and the member is one of its own (`Source.Owns`). What fails while a
name is registered is the fault of that name or of one that it leads up to, and what fails while a
property is settled is the fault of that property. `Reachable.blames` says so of all calls.
-/

namespace Metamodel

open Relation (ReflTransGen)

namespace Source

/-- A subject with a member is that of a declaration that has the member itself. -/
def Owns (source : Source) (subject : Subject) : Prop :=
  ∀ member ∈ subject.member, ∃ declaration,
    source.declaration? subject.typeName = some declaration ∧
      member ∈ declaration.members.map (·.name)

variable {source : Source} {config : Config} {name : String} {declaration : Declaration}
  {violation : Violation}

/-- A type as a whole is nobody's member. -/
theorem owns_ofType (typeName : String) (fault : Fault) :
    source.Owns (Violation.ofType typeName fault).subject :=
  fun _ hmember => nomatch hmember

/-- What is about a declaration of the source blames none but its own members. -/
theorem owns_of_about (hdeclared : source.declaration? name = some declaration)
    (h : violation.About declaration) : source.Owns violation.subject := by
  intro member hmember
  refine ⟨declaration, ?_, h.member_mem member hmember⟩
  rw [h.typeName_eq, qualifiedName_of_declaration? hdeclared, hdeclared]

/-- Whichever rule keeps a name from being registered, no member of an ancestor is blamed. -/
theorem Breaks.owns {busy : List String} (h : source.Breaks config busy name violation) :
    source.Owns violation.subject := by
  cases h with
  | cyclic | undeclared => exact owns_ofType _ _
  | alone hdeclared hheader => exact owns_of_about hdeclared (Header.about_of_error hheader)
  | root hdeclared _ _ hblueprint | under hdeclared _ _ _ hblueprint =>
    exact owns_of_about hdeclared (Blueprint.about_of_error hblueprint)

end Source

namespace Graph

variable {source : Source} {config : Config} {graph : Graph} {key : PropKey} {prop : Property}

/-- A property is labelled with the type that declares it and its name there. -/
theorem Realizes.exists_label (h : graph.Realizes source config)
    (hprop : graph.prop? key = some prop) :
    ∃ owner, graph.type? prop.declaringType = some owner ∧
      graph.label key = ⟨owner.qualifiedName, prop.name⟩ ∧
      source.Owns ⟨owner.qualifiedName, some prop.name⟩ := by
  obtain ⟨owner, -, howner, declaration, _, hdeclared, -, member, hmember, id, hmade⟩ :=
    h.exists_origin hprop
  have hname : prop.name = member.name :=
    congrArg PropSpec.name (Member.spec_eq_ok_iff.1 hmade).2.2
  refine ⟨owner, howner, by simp [label, hprop, typeName, howner], ?_⟩
  rintro _ ⟨⟩
  rw [hname]
  exact ⟨declaration, hdeclared,
    List.mem_map_of_mem (Declaration.mem_propertyMembers.1 hmember).1⟩

/-- Whoever is blamed by the label of a property is blamed for a member of its own. -/
theorem Realizes.owns_label (h : graph.Realizes source config)
    (hprop : graph.prop? key = some prop) (fault : Fault) :
    source.Owns
      (Violation.ofMember (graph.label key).owner (graph.label key).name fault).subject := by
  obtain ⟨owner, -, hlabel, howns⟩ := h.exists_label hprop
  rw [hlabel]
  exact howns

end Graph

/-! ### Calls -/

theorem Outcome.eq_of_error {α : Type} {outcome : Outcome α} {violation : Violation}
    (h : outcome.result = .error violation) : outcome = ⟨.error violation, outcome.registry⟩ := by
  rw [← h]

namespace Registry

variable {source : Source} {config : Config} {registry after : Registry} {violation : Violation}

/-- A step that fails blames the property that it is a step of. -/
theorem Step.exists_owner {round : Nat} {key : PropKey} {outcome : Outcome Bool}
    (hstep : Step round key registry outcome) (h : registry.Sound source config)
    (hresult : outcome.result = .error violation) :
    ∃ prop owner, registry.graph.prop? key = some prop ∧
      registry.graph.type? prop.declaringType = some owner ∧
      violation.subject = ⟨owner.qualifiedName, some prop.name⟩ := by
  cases hstep with
  | idle | waits | settles => cases hresult
  | fails hkey _ _ =>
    cases hresult
    obtain ⟨owner, howner, hlabel, -⟩ := h.realizes.exists_label hkey
    exact ⟨_, owner, hkey, howner, by rw [hlabel]; rfl⟩

/-- When the rounds run out, the first property that is still pending is blamed. -/
theorem exists_of_unsettled? {bound : Nat} {graph : Graph}
    (h : unsettled? bound graph = some violation) :
    ∃ key prop fault, graph.prop? key = some prop ∧
      violation = .ofMember (graph.label key).owner (graph.label key).name fault := by
  obtain ⟨key, hkey, rfl⟩ := Option.map_eq_some_iff.1 h
  obtain ⟨prop, hprop, -⟩ := Graph.mem_pending.1 (List.mem_of_mem_head? hkey)
  exact ⟨key, prop, _, hprop, rfl⟩

namespace Sound

theorem owns_of_resolve (h : registry.Sound source config) {name : String}
    (hfails : registry.resolve source config name = ⟨.error violation, after⟩) :
    source.Owns violation.subject := by
  obtain ⟨waiting, failing, hat⟩ := resolve_failsAt h.realizes (congrArg Outcome.result hfails)
  exact hat.breaks.owns

theorem owns_of_resolveAll (h : registry.Sound source config)
    (hfails : registry.resolveAll source config = ⟨.error violation, after⟩) :
    source.Owns violation.subject := by
  obtain ⟨name, -, middle, hmiddle, hstep⟩ := exists_of_forEach_error
    (fun hbefore _ => hbefore.resolve _) h hfails
  exact hmiddle.owns_of_resolve hstep

theorem owns_of_linkTarget (h : registry.Sound source config) {key : PropKey}
    (hfails : registry.linkTarget source config key = ⟨.error violation, after⟩) :
    source.Owns violation.subject := by
  rw [linkTarget] at hfails
  cases hreference : (registry.graph.prop? key).bind (·.reference) with
  | none =>
    rw [hreference] at hfails
    cases hfails
  | some name =>
    rw [hreference] at hfails
    have hresult := Except.map_eq_error_iff.1 (congrArg Outcome.result hfails)
    exact h.owns_of_resolve (Outcome.eq_of_error hresult)

theorem owns_of_linkTargets (h : registry.Sound source config)
    (hfails : registry.linkTargets source config = ⟨.error violation, after⟩) :
    source.Owns violation.subject := by
  have hkeeps (key : PropKey) {before : Registry} (hbefore : before.Sound source config) :
      (before.linkTarget source config key).registry.Sound source config :=
    sound_of_moves (linkTarget_moves (fun name _ => .registers name) key before) hbefore
  obtain ⟨key, -, middle, hmiddle, hstep⟩ := exists_of_forEach_error
    (fun hbefore _ => hkeeps _ hbefore) h hfails
  exact hmiddle.owns_of_linkTarget hstep

theorem owns_of_resolveProperty (h : registry.Sound source config) {round : Nat} {key : PropKey}
    (hfails : resolveProperty round key registry = ⟨.error violation, after⟩) :
    source.Owns violation.subject := by
  have hstep := resolveProperty_step round key registry
  rw [hfails] at hstep
  cases hstep with
  | fails hkey _ _ => exact h.realizes.owns_label hkey _

theorem owns_of_resolveType (h : registry.Sound source config) {round : Nat} {key : TypeKey}
    (hfails : resolveType round key registry = ⟨.error violation, after⟩) :
    source.Owns violation.subject := by
  obtain ⟨prop, -, middle, hmiddle, hstep⟩ := exists_of_anyStep_error
    (fun hbefore _ => (resolveProperty_step ..).sound hbefore) h hfails
  exact hmiddle.owns_of_resolveProperty hstep

theorem owns_of_resolveRound (h : registry.Sound source config) {round : Nat}
    (hfails : resolveRound round registry = ⟨.error violation, after⟩) :
    source.Owns violation.subject := by
  have hkeeps (type : TypeKey) {before : Registry} (hbefore : before.Sound source config) :
      (resolveType round type before).registry.Sound source config :=
    sound_of_moves (moves_of_resolving (resolveType_resolving round type before)) hbefore
  obtain ⟨type, -, middle, hmiddle, hstep⟩ := exists_of_anyStep_error
    (fun hbefore _ => hkeeps _ hbefore) h hfails
  exact hmiddle.owns_of_resolveType hstep

theorem owns_of_roundsFrom (h : registry.Sound source config) {bound remaining round : Nat}
    (hfails : roundsFrom bound remaining round registry = ⟨.error violation, after⟩) :
    source.Owns violation.subject := by
  induction remaining generalizing registry round with
  | zero =>
    rw [roundsFrom] at hfails
    cases hunsettled : unsettled? bound registry.graph with
    | none =>
      rw [hunsettled] at hfails
      cases hfails
    | some blamed =>
      rw [hunsettled] at hfails
      cases hfails
      obtain ⟨key, prop, fault, hprop, rfl⟩ := exists_of_unsettled? hunsettled
      exact h.realizes.owns_label hprop fault
  | succ remaining ih =>
    have hsound := sound_of_moves (moves_of_resolving (resolveRound_resolving round registry)) h
    rw [roundsFrom] at hfails
    cases hround : registry.resolveRound round with
    | mk result middle =>
      rw [hround] at hfails hsound
      cases result with
      | error blamed =>
        cases hfails
        exact h.owns_of_resolveRound hround
      | ok more =>
        cases more with
        | true => exact ih (hsound.record _) hfails
        | false => cases hfails

theorem owns_of_resolveRounds (h : registry.Sound source config)
    (hfails : registry.resolveRounds = ⟨.error violation, after⟩) :
    source.Owns violation.subject := by
  rw [resolveRounds] at hfails
  split at hfails
  · cases hfails
  · exact h.owns_of_roundsFrom hfails

/-- No call blames a member that is not the blamed declaration's own. -/
theorem owns_of_run (h : registry.Sound source config) (command : Command)
    (hresult : (command.run source config registry).result = .error violation) :
    source.Owns violation.subject := by
  cases command with
  | resolve name =>
    exact h.owns_of_resolve (Outcome.eq_of_error (Except.map_eq_error_iff.1 hresult))
  | resolveAll => exact h.owns_of_resolveAll (Outcome.eq_of_error hresult)
  | linkTargets => exact h.owns_of_linkTargets (Outcome.eq_of_error hresult)
  | resolveProperty key round =>
    exact h.owns_of_resolveProperty (Outcome.eq_of_error (Except.map_eq_error_iff.1 hresult))
  | resolveType key round =>
    exact h.owns_of_resolveType (Outcome.eq_of_error (Except.map_eq_error_iff.1 hresult))
  | resolveRounds =>
    exact h.owns_of_resolveRounds (Outcome.eq_of_error (Except.map_eq_error_iff.1 hresult))

end Sound

end Registry

variable {source : Source} {config : Config} {registry : Registry} {violation : Violation}

/-- A compilation fails where it cannot register everything, or in its rounds. -/
theorem Compilation.exists_run_of_error (h : compile source config = .error violation) :
    ∃ command registry, Reachable source config registry ∧
      (Command.run source config registry command).result = .error violation := by
  rw [compile, run, Except.map_eq_error_iff] at h
  cases hall : Registry.resolveAll source config {} with
  | mk result registered =>
    cases result with
    | error blamed =>
      rw [settle, hall] at h
      obtain rfl := Except.error.inj h
      exact ⟨.resolveAll, {}, .refl, congrArg Outcome.result hall⟩
    | ok _ =>
      have hreachable : LeadsTo source config {} _ := .step .resolveAll .refl
      rw [settle_eq hall] at h
      refine ⟨.resolveRounds, _, hreachable, ?_⟩
      simp only [Command.run, hall, Outcome.forget, h]
      rfl

/-- Whom the calls on a registry blame where they fail. -/
structure Registry.Blames (source : Source) (config : Config) (registry : Registry) : Prop where
  /-- The registration of a name is the fault of that name or of one that it leads up to. -/
  resolve : ∀ name violation, (registry.resolve source config name).result = .error violation →
    ReflTransGen source.Ascends name violation.subject.typeName
  /-- A step of a property is its own fault, in the type that declares it. -/
  resolveProperty : ∀ round key violation,
    (registry.resolveProperty round key).result = .error violation →
      ∃ prop owner, registry.graph.prop? key = some prop ∧
        registry.graph.type? prop.declaringType = some owner ∧
        violation.subject = ⟨owner.qualifiedName, some prop.name⟩
  /-- Whatever the call, a member that is blamed is the blamed declaration's own. -/
  owns : ∀ command violation, (Command.run source config registry command).result =
    .error violation → source.Owns violation.subject

/-- In every reachable registry a failing registration blames the name that it is called for or
one that this leads up to by immutable interfaces, a failing step blames the property that it is a
step of, and any failing call that blames a member blames one of the own members of a declared
type. The last holds of compilations as well. -/
theorem Reachable.blames (h : Reachable source config registry) :
    registry.Blames source config ∧
      ∀ violation, compile source config = .error violation → source.Owns violation.subject := by
  refine ⟨⟨fun name violation hresult => ?_, fun round key violation hresult => ?_,
    fun command violation hresult => h.sound.owns_of_run command hresult⟩,
    fun violation hresult => ?_⟩
  · obtain ⟨waiting, failing, hfails⟩ := Registry.resolve_failsAt h.sound.realizes hresult
    rw [hfails.breaks.typeName_eq]
    exact hfails.climb.reflTransGen
  · exact (Registry.resolveProperty_step round key registry).exists_owner h.sound hresult
  · obtain ⟨command, registry, hreachable, hfails⟩ := Compilation.exists_run_of_error hresult
    exact hreachable.sound.owns_of_run command hfails

/-- Guests with an identity of their own, below persons, who have one already and a label that
depends on nothing there is. -/
def guests : Source where
  declarations := {
    toList := [
      { simpleName := "Guest"
        tags := [.entity none]
        interfaces := ["Person"]
        members := [{ name := "badge", type := .named "int", tags := [.id] }] },
      { simpleName := "Person"
        tags := [.mappedSuperclass none false]
        members := [
          { name := "id", type := .named "int", tags := [.id] },
          { name := "label", type := .named "string", hasBody := true
            tags := [.formula { dependencies := ["nickname"] }] }] }]
    names_nodup := by decide }

theorem Reachable.blames_guests :
    ∃ registry, Reachable guests {} registry ∧
      (registry.resolve guests {} "Guest").result =
        .error (.ofMember "Guest" "badge" (.specialTaken .identity ⟨"Person", "id"⟩)) ∧
      (registry.resolveProperty 1 ⟨1⟩).result =
        .error (.ofMember "Person" "label" (.unknownDependency "nickname" "nickname" "Person")) ∧
      registry.Blames guests {} ∧
      ∀ violation, compile guests {} = .error violation → guests.Owns violation.subject := by
  have hreachable : LeadsTo guests {} {} _ := .step (.resolve "Person") .refl
  exact ⟨_, hreachable, by decide +kernel, by decide +kernel, Reachable.blames hreachable⟩

end Metamodel
