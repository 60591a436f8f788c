import Mathlib.Logic.Relation
import Metamodel.Proofs.Blueprint.Blame
import Metamodel.Proofs.Legality

/-!
# The way up

Registration of a name climbs from the name to its ancestors, one after the other, while all names
below wait. `Source.Climb` is that way without any registry. Where registration fails, it fails at
the last name of such a climb, for a rule that this name breaks (`Source.Breaks`), and what it has
added until then is strictly above that name: `Registry.resolve_failsAt` takes a failing
registration apart.
-/

namespace Metamodel

open Relation (ReflTransGen TransGen)

namespace Source

variable {source : Source} {config : Config} {name ancestor other : String}

/-- A name leads up to the single immutable interface of its declaration, provided that the
declaration keeps the rules for what it says by itself. -/
def Ascends (source : Source) (name ancestor : String) : Prop :=
  ∃ declaration, source.declaration? name = some declaration ∧ declaration.LegalAlone source ∧
    declaration.interfaces.filter source.isImmutable = [ancestor]

/-- Names lead up as their headers say. -/
theorem ascends_iff : source.Ascends name ancestor ↔
    ∃ declaration header, source.declaration? name = some declaration ∧
      Header.ofDeclaration source declaration = .ok header ∧ header.ancestor = some ancestor := by
  constructor
  · rintro ⟨declaration, hdeclared, hlegal, hsingle⟩
    obtain ⟨header, hheader⟩ := Header.exists_ok_iff.2 hlegal
    exact ⟨declaration, header, hdeclared, hheader, (ancestor_eq_some_iff hheader).2 hsingle⟩
  · rintro ⟨declaration, header, hdeclared, hheader, hancestor⟩
    exact ⟨declaration, hdeclared, Header.exists_ok_iff.1 ⟨header, hheader⟩,
      (ancestor_eq_some_iff hheader).1 hancestor⟩

/-- What a name leads up to has the lineage above that of the name. -/
theorem HasLineage.of_ascends {lineage : Lineage} (h : source.HasLineage config name lineage)
    (hup : source.Ascends name ancestor) :
    ∃ blueprint above, lineage = blueprint :: above ∧ source.HasLineage config ancestor above := by
  obtain ⟨declaration, header, hdeclared, hheader, hancestor⟩ := ascends_iff.1 hup
  cases h with
  | root hdeclared' hheader' hroot _ =>
    obtain rfl := Option.some.inj (hdeclared.symm.trans hdeclared')
    obtain rfl := Except.ok.inj (hheader.symm.trans hheader')
    cases hancestor.symm.trans hroot
  | child hdeclared' hheader' hancestor' habove _ =>
    obtain rfl := Option.some.inj (hdeclared.symm.trans hdeclared')
    obtain rfl := Except.ok.inj (hheader.symm.trans hheader')
    obtain rfl := Option.some.inj (hancestor.symm.trans hancestor')
    exact ⟨_, _, rfl, habove⟩

/-- Further up lineages are shorter. -/
theorem HasLineage.of_transGen {lineage : Lineage} (h : source.HasLineage config name lineage)
    (hup : TransGen source.Ascends name other) :
    ∃ above, source.HasLineage config other above ∧ above.length < lineage.length := by
  induction hup with
  | single hstep =>
    obtain ⟨blueprint, above, rfl, habove⟩ := h.of_ascends hstep
    exact ⟨above, habove, by simp⟩
  | tail _ hstep ih =>
    obtain ⟨lower, hlower, hlt⟩ := ih
    obtain ⟨blueprint, above, rfl, habove⟩ := hlower.of_ascends hstep
    exact ⟨above, habove, by rw [List.length_cons] at hlt; omega⟩

/-- A name that leads up to itself has no lineage. -/
theorem HasLineage.not_ascends_self {lineage : Lineage}
    (h : source.HasLineage config name lineage) : ¬ TransGen source.Ascends name name := by
  intro hup
  obtain ⟨above, habove, hlt⟩ := h.of_transGen hup
  rw [h.unique habove] at hlt
  exact absurd hlt (Nat.lt_irrefl _)

/-! ### Climbs -/

/-- From a name upwards: the names that have been left, in order, and the one that is reached. -/
inductive Climb (source : Source) : String → List String → String → Prop where
  | stay {name : String} : Climb source name [] name
  | up {name ancestor last : String} {left : List String} :
    source.Ascends name ancestor →
    Climb source ancestor left last →
    Climb source name (name :: left) last

namespace Climb

variable {left : List String} {last : String}

/-- A climb goes up. -/
theorem reflTransGen (h : source.Climb name left last) : ReflTransGen source.Ascends name last := by
  induction h with
  | stay => exact .refl
  | up hstep _ ih => exact .head hstep ih

/-- Every name that was left leads up to the last. -/
theorem transGen (h : source.Climb name left last) (hname : other ∈ left) :
    TransGen source.Ascends other last := by
  induction h with
  | stay => cases hname
  | up hstep hclimb ih =>
    rcases List.mem_cons.1 hname with rfl | hname
    · exact .head' hstep hclimb.reflTransGen
    · exact ih hname

/-- A climb to a name that was left already has no lineage anywhere. -/
theorem no_lineage (h : source.Climb name left last) (hlast : last ∈ left) (hname : other ∈ left) :
    ¬ ∃ lineage, source.HasLineage config other lineage := by
  rintro ⟨lineage, hlineage⟩
  obtain ⟨above, habove, -⟩ := hlineage.of_transGen (h.transGen hname)
  exact habove.not_ascends_self (h.transGen hlast)

end Climb

/-! ### Broken rules -/

/-- The rule that keeps a name from being registered, though nothing else above it does, while
`busy` names wait for it. -/
inductive Breaks (source : Source) (config : Config) (busy : List String) :
    String → Violation → Prop where
  /-- The name waits for itself. -/
  | cyclic {name : String} :
    name ∈ busy →
    Breaks source config busy name
      (.ofType name (.cyclicAncestry (busy.dropWhile (· ≠ name) ++ [name])))
  /-- The name is not declared. -/
  | undeclared {name : String} :
    source.declaration? name = none →
    Breaks source config busy name (.ofType name .undeclared)
  /-- The declaration breaks a rule for what it says by itself. -/
  | alone {name : String} {declaration : Declaration} {violation : Violation} :
    source.declaration? name = some declaration →
    Header.ofDeclaration source declaration = .error violation →
    Breaks source config busy name violation
  /-- The declaration has no ancestor and breaks another rule. -/
  | root {name : String} {declaration : Declaration} {header : Header} {violation : Violation} :
    source.declaration? name = some declaration →
    Header.ofDeclaration source declaration = .ok header →
    header.ancestor = none →
    Blueprint.ofDeclaration source config declaration header none = .error violation →
    Breaks source config busy name violation
  /-- The ancestor has a lineage, under which the declaration breaks a rule. -/
  | under {name ancestor : String} {declaration : Declaration} {header : Header}
      {above : Lineage} {violation : Violation} :
    source.declaration? name = some declaration →
    Header.ofDeclaration source declaration = .ok header →
    header.ancestor = some ancestor →
    source.HasLineage config ancestor above →
    Blueprint.ofDeclaration source config declaration header above.inherited? =
      .error violation →
    Breaks source config busy name violation

variable {busy : List String} {violation : Violation}

/-- Whoever breaks a rule is blamed for it. -/
theorem Breaks.typeName_eq (h : source.Breaks config busy name violation) :
    violation.subject.typeName = name := by
  cases h with
  | cyclic | undeclared => rfl
  | alone hdeclared hheader =>
    exact (Header.about_of_error hheader).typeName_eq.trans
      (qualifiedName_of_declaration? hdeclared)
  | root hdeclared _ _ hblueprint | under hdeclared _ _ _ hblueprint =>
    exact (Blueprint.about_of_error hblueprint).typeName_eq.trans
      (qualifiedName_of_declaration? hdeclared)

/-- A cycle is reported of names that wait for themselves only. -/
theorem Breaks.of_cycle? (h : source.Breaks config busy name violation)
    (hcycle : violation.fault.cycle? ≠ none) :
    name ∈ busy ∧
      violation = .ofType name (.cyclicAncestry (busy.dropWhile (· ≠ name) ++ [name])) := by
  cases h with
  | cyclic hbusy => exact ⟨hbusy, rfl⟩
  | undeclared => exact absurd rfl hcycle
  | alone _ hheader => exact absurd (Header.about_of_error hheader).cycle?_eq hcycle
  | root _ _ _ hblueprint | under _ _ _ _ hblueprint =>
    exact absurd (Blueprint.about_of_error hblueprint).cycle?_eq hcycle

end Source

namespace Registry

variable {source : Source} {config : Config} {registry : Registry} {name : String}

/-! ### What registration adds -/

/-- Registration of a name adds the name and what is above it, at most. -/
theorem resolve_adds (source : Source) (config : Config) (name : String) (registry : Registry) :
    ∃ types props, registry.Adds types props (registry.resolve source config name).registry ∧
      ∀ type ∈ types, ReflTransGen source.Ascends name type.qualifiedName := by
  fun_induction Registry.resolve source config name registry with
  | case1 | case2 | case3 | case4 => exact ⟨[], [], .nil _, by simp⟩
  | case5 name registry hnew hidle declaration hdeclared header hheader hroot =>
    obtain ⟨types, props, hadds, hself⟩ := construct_adds config header none hdeclared hidle
    refine ⟨types, props, hadds, fun type htype => ?_⟩
    rw [hself type htype]
  | case6 name registry hnew hidle declaration hdeclared header hheader ancestor hancestor outcome
      violation hresult ih =>
    obtain ⟨types, props, hadds, habove⟩ := ih
    have hup := Source.ascends_iff.2 ⟨declaration, header, hdeclared, hheader, hancestor⟩
    exact ⟨types, props, hadds.of_enter, fun type htype => .head hup (habove type htype)⟩
  | case7 name registry hnew hidle declaration hdeclared header hheader ancestor hancestor outcome
      key hresult ih =>
    obtain ⟨types, props, hadds, habove⟩ := ih
    have hup := Source.ascends_iff.2 ⟨declaration, header, hdeclared, hheader, hancestor⟩
    have hadds := hadds.of_enter
    have hidle' : name ∉ outcome.registry.leave.inProgress := hadds.inProgress_eq ▸ hidle
    obtain ⟨types', props', hadds', hself⟩ :=
      construct_adds config header (some key) hdeclared hidle'
    refine ⟨_, _, hadds.append hadds', fun type htype => ?_⟩
    rcases List.mem_append.1 htype with htype | htype
    · exact .head hup (habove type htype)
    · rw [hself type htype]

/-! ### Failing registrations -/

/-- A registration has climbed from a name to one that breaks a rule. It has added what is strictly
above that one, and none of the names that wait; nothing that waits has waited before. -/
structure FailsAt (source : Source) (config : Config) (registry : Registry) (name : String)
    (waiting : List String) (failing : String) (violation : Violation) (after : Registry) :
    Prop where
  climb : source.Climb name waiting failing
  breaks : source.Breaks config (registry.inProgress ++ waiting) failing violation
  nodup : waiting.Nodup
  idle : ∀ busy ∈ waiting, busy ∉ registry.inProgress
  unregistered : ∀ busy ∈ waiting ++ [failing], after.graph.keyOf? busy = none
  adds : ∃ types props, registry.Adds types props after ∧
    ∀ type ∈ types, TransGen source.Ascends failing type.qualifiedName

variable {after : Registry} {violation : Violation}

/-- A registration that adds nothing fails at the name that it is called for. -/
theorem FailsAt.here (hnew : registry.graph.keyOf? name = none)
    (hbreaks : source.Breaks config registry.inProgress name violation) :
    registry.FailsAt source config name [] name violation registry where
  climb := .stay
  breaks := by rwa [List.append_nil]
  nodup := .nil
  idle := by simp
  unregistered := by simpa using hnew
  adds := ⟨[], [], .nil registry, by simp⟩

/-- A registration fails where that of the ancestor does. -/
theorem FailsAt.up {ancestor failing : String} {waiting : List String}
    (hup : source.Ascends name ancestor) (hnew : registry.graph.keyOf? name = none)
    (hidle : name ∉ registry.inProgress)
    (h : (registry.enter name).FailsAt source config ancestor waiting failing violation after) :
    registry.FailsAt source config name (name :: waiting) failing violation after.leave := by
  obtain ⟨types, props, hadds, habove⟩ := h.adds
  have hself : name ∈ (registry.enter name).inProgress := by simp [enter]
  have hbusy : registry.inProgress ++ name :: waiting =
      (registry.enter name).inProgress ++ waiting := by simp [enter]
  refine ⟨.up hup h.climb, hbusy ▸ h.breaks, ?_, ?_, ?_, ⟨types, props, hadds.of_enter, habove⟩⟩
  · exact List.nodup_cons.2 ⟨fun hmem => h.idle name hmem hself, h.nodup⟩
  · intro busy hmem
    rcases List.mem_cons.1 hmem with rfl | hmem
    · exact hidle
    · exact fun hin => h.idle busy hmem (List.mem_append_left _ hin)
  · intro busy hmem
    rcases List.mem_cons.1 hmem with rfl | hmem
    · exact hadds.keyOf?_eq_none hnew hself
    · exact h.unregistered busy hmem

/-- A construction under a registered ancestor fails for a rule of the declaration. -/
theorem construct_breaks {declaration : Declaration} {header : Header}
    {ancestor : Option TypeKey} {above : Lineage} {busy : List String}
    (hdeclared : source.declaration? name = some declaration)
    (hheader : Header.ofDeclaration source declaration = .ok header)
    (hparent : registry.graph.Parent source config header ancestor above)
    (hresult : (registry.construct source config declaration header ancestor).result =
      .error violation) :
    source.Breaks config busy name violation ∧
      (registry.construct source config declaration header ancestor).registry = registry := by
  rw [construct, hparent.inherited?_eq] at hresult ⊢
  cases hblueprint : Blueprint.ofDeclaration source config declaration header above.inherited? with
  | ok blueprint =>
    rw [hblueprint] at hresult
    cases hresult
  | error blamed =>
    rw [hblueprint] at hresult
    obtain rfl := Except.error.inj hresult
    refine ⟨?_, rfl⟩
    cases hparent with
    | root hroot => exact .root hdeclared hheader hroot hblueprint
    | under hancestor habove _ => exact .under hdeclared hheader hancestor habove hblueprint

/-- Where registration fails, some name above breaks a rule. -/
theorem resolve_failsAt (h : registry.graph.Realizes source config)
    (hresult : (registry.resolve source config name).result = .error violation) :
    ∃ waiting failing, registry.FailsAt source config name waiting failing violation
      (registry.resolve source config name).registry := by
  revert hresult
  fun_induction Registry.resolve source config name registry with
  | case1 => rintro ⟨⟩
  | case2 name registry hnew hcyclic cycle =>
    rintro ⟨⟩
    exact ⟨[], name, .here hnew (.cyclic hcyclic)⟩
  | case3 name registry hnew hidle hundeclared =>
    rintro ⟨⟩
    exact ⟨[], name, .here hnew (.undeclared hundeclared)⟩
  | case4 name registry hnew hidle declaration hdeclared blamed hheader =>
    rintro ⟨⟩
    exact ⟨[], name, .here hnew (.alone hdeclared hheader)⟩
  | case5 name registry hnew hidle declaration hdeclared header hheader hroot =>
    intro hresult
    obtain ⟨hbreaks, hsame⟩ := construct_breaks hdeclared hheader (.root hroot) hresult
    rw [hsame]
    exact ⟨[], name, .here hnew hbreaks⟩
  | case6 name registry hnew hidle declaration hdeclared header hheader ancestor hancestor outcome
      blamed hblamed ih =>
    rintro ⟨⟩
    obtain ⟨waiting, failing, hfails⟩ := ih h hblamed
    have hup := Source.ascends_iff.2 ⟨declaration, header, hdeclared, hheader, hancestor⟩
    exact ⟨name :: waiting, failing, hfails.up hup hnew hidle⟩
  | case7 name registry hnew hidle declaration hdeclared header hheader ancestor hancestor outcome
      key hkey ih =>
    intro hresult
    -- all that was added is the ancestor and what is above it
    obtain ⟨types, props, hadds, habove⟩ := resolve_adds source config ancestor
      (registry.enter name)
    have hup := Source.ascends_iff.2 ⟨declaration, header, hdeclared, hheader, hancestor⟩
    have hnew' : outcome.registry.leave.graph.keyOf? name = none :=
      hadds.keyOf?_eq_none hnew (by simp [enter])
    have hentered : (registry.enter name).graph.Realizes source config := h
    obtain ⟨hrealizes, -, hfound⟩ := resolve_registers hentered ancestor
    obtain ⟨parent, hparent, rfl⟩ := hfound hkey
    obtain ⟨hmem, rfl⟩ := hrealizes.find?_eq_some_iff.1 hparent
    obtain ⟨lineage, hlineage, hplaces⟩ := hrealizes.placed parent hmem
    have hplaced : outcome.registry.leave.graph.Parent source config header (some parent.key)
        lineage := .under hancestor hlineage hplaces
    obtain ⟨hbreaks, hsame⟩ := construct_breaks hdeclared hheader hplaced hresult
    rw [hsame]
    exact ⟨[], name, {
      climb := .stay
      breaks := hbreaks
      nodup := .nil
      idle := by simp
      unregistered := by simpa using hnew'
      adds := ⟨types, props, hadds.of_enter, fun type htype => .head' hup (habove type htype)⟩ }⟩

end Registry

end Metamodel
