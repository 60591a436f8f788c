import Mathlib.Data.List.Forall2
import Metamodel.Proofs.Blueprint.Specials

/-!
# What the checks of a declaration establish

Headers and blueprints are built by checks in a fixed order, each of which may report a
violation. `Header.ofDeclaration_eq_ok_iff` and `Blueprint.ofDeclaration_eq_ok_iff` say for each
that it is built exactly when no check reports anything, and what it is then.
-/

namespace Metamodel

variable {ε : Type}

/-- A check succeeds exactly when there is nothing to report. -/
@[simp]
theorem succeedUnless_eq_ok_iff {report : Option ε} {done : Unit} :
    succeedUnless report = .ok done ↔ report = none := by
  cases report <;> simp [succeedUnless]

/-- A sequence of checks succeeds exactly when the first succeeds and the rest does. -/
theorem Except.bind_eq_ok_iff {α β : Type} {first : Except ε α} {rest : α → Except ε β}
    {result : β} :
    first >>= rest = .ok result ↔ ∃ value, first = .ok value ∧ rest value = .ok result := by
  cases first with
  | error report => simp [bind, Except.bind]
  | ok value => simp [bind, Except.bind]

/-- Success does not depend on how failures are reported. -/
theorem Except.mapError_eq_ok_iff {ε' α : Type} {f : ε → ε'} {outcome : Except ε α} {value : α} :
    outcome.mapError f = .ok value ↔ outcome = .ok value := by
  cases outcome <;> simp [Except.mapError]

/-- Success is success with what the function is applied to. -/
theorem Except.map_eq_ok_iff {α β : Type} {f : α → β} {outcome : Except ε α} {result : β} :
    outcome.map f = .ok result ↔ ∃ value, outcome = .ok value ∧ f value = result := by
  cases outcome <;> simp [Except.map]

/-- A sequence of checks fails as the first of them that does. -/
theorem Except.bind_eq_error_iff {α β : Type} {first : Except ε α} {rest : α → Except ε β}
    {report : ε} :
    first >>= rest = .error report ↔
      first = .error report ∨ ∃ value, first = .ok value ∧ rest value = .error report := by
  cases first with
  | error other => simp [bind, Except.bind]
  | ok value => simp [bind, Except.bind]

/-- Failure is the failure of what the function is applied to. -/
theorem Except.map_eq_error_iff {α β : Type} {f : α → β} {outcome : Except ε α} {report : ε} :
    outcome.map f = .error report ↔ outcome = .error report := by
  cases outcome <;> simp [Except.map]

/-- A list is processed successfully exactly when every item is, and the results stand in the
order of the items. -/
theorem Except.mapM_eq_ok_iff {α β : Type} {f : α → Except ε β} {items : List α}
    {results : List β} :
    items.mapM f = .ok results ↔ List.Forall₂ (fun item result => f item = .ok result)
      items results := by
  induction items generalizing results with
  | nil => cases results <;> simp [pure, Except.pure]
  | cons item items ih =>
    simp only [List.mapM_cons, Except.bind_eq_ok_iff, pure, Except.pure, Except.ok.injEq, ih]
    constructor
    · rintro ⟨result, hresult, results, hresults, rfl⟩
      exact .cons hresult hresults
    · rintro (_ | ⟨hresult, hresults⟩)
      exact ⟨_, hresult, _, hresults, rfl⟩

/-- A list is processed alike by functions that agree on its items. -/
theorem Except.mapM_congr {α β : Type} {f g : α → Except ε β} {items : List α}
    (h : ∀ item ∈ items, f item = g item) : items.mapM f = items.mapM g := by
  induction items with
  | nil => rfl
  | cons item items ih =>
    obtain ⟨hitem, hitems⟩ := List.forall_mem_cons.1 h
    rw [List.mapM_cons, List.mapM_cons, hitem, ih hitems]

/-- A list is processed successfully by some results exactly when every item has one. -/
theorem Except.exists_mapM_ok_iff {α β : Type} {f : α → Except ε β} {items : List α} :
    (∃ results, items.mapM f = .ok results) ↔ ∀ item ∈ items, ∃ result, f item = .ok result := by
  simp only [mapM_eq_ok_iff]
  induction items with
  | nil => simp
  | cons item items ih =>
    rw [List.forall_mem_cons, ← ih]
    constructor
    · rintro ⟨_, _ | ⟨hresult, hresults⟩⟩
      exact ⟨⟨_, hresult⟩, _, hresults⟩
    · rintro ⟨⟨result, hresult⟩, results, hresults⟩
      exact ⟨_, .cons hresult hresults⟩

/-- Every item of a list has a number when the items are numbered. -/
theorem List.exists_mem_zipIdx_of_mem {α : Type} {items : List α} {item : α} (h : item ∈ items)
    (first : Nat) : ∃ id, (item, id) ∈ items.zipIdx first := by
  rw [← List.zipIdx_map_fst first items] at h
  obtain ⟨⟨_, id⟩, hentry, rfl⟩ := List.mem_map.1 h
  exact ⟨id, hentry⟩

/-- A header is built exactly when no check of the declaration alone reports anything. -/
theorem Header.ofDeclaration_eq_ok_iff {source : Source} {declaration : Declaration}
    {header : Header} :
    Header.ofDeclaration source declaration = .ok header ↔
      declaration.nameFault? = none ∧
      declaration.classify = .ok (header.category, header.scope) ∧
      messageFault? [] declaration.messages = none ∧
      header.messages = declaration.sortedMessages ∧
      declaration.ancestor? source = .ok header.ancestor := by
  simp only [Header.ofDeclaration, Except.mapError_eq_ok_iff, Except.bind_eq_ok_iff,
    succeedUnless_eq_ok_iff, Option.map_eq_none_iff, exists_and_left, exists_const, pure,
    Except.pure, Except.ok.injEq]
  constructor
  · rintro ⟨hname, ⟨category, scope⟩, hclassify, hmessages, ancestor, hancestor, rfl⟩
    exact ⟨hname, hclassify, hmessages, rfl, hancestor⟩
  · rintro ⟨hname, hclassify, hmessages, hsorted, hancestor⟩
    exact ⟨hname, _, hclassify, hmessages, _, hancestor, by rw [← hsorted]⟩

/-- No member is at fault exactly when their names are new and distinct and none with a body has
a tag for members without. -/
theorem memberViolation?_eq_none_iff {typeName : String} {seen : List String}
    {members : List Member} :
    memberViolation? typeName seen members = none ↔
      (members.map (·.name)).Nodup ∧ (∀ member ∈ members, member.name ∉ seen) ∧
        ∀ member ∈ members, member.bodyTag? = none := by
  induction members generalizing seen with
  | nil => simp [memberViolation?]
  | cons member rest ih =>
    rw [memberViolation?]
    split
    · next hseen => simp [hseen]
    · next hseen =>
      simp only [Option.or_eq_none_iff, Option.map_eq_none_iff, ih, List.map_cons,
        List.nodup_cons, List.mem_map, not_exists, not_and, List.mem_cons, not_or,
        forall_eq_or_imp]
      grind

/-- Whether a member becomes a property: it has no body, or it has a formula. -/
def Member.isProperty (member : Member) : Bool :=
  !member.hasBody || member.tags.has .formula

/-- The members that become properties, in another order. -/
theorem Declaration.propertyMembers_perm (declaration : Declaration) :
    declaration.propertyMembers.Perm (declaration.members.filter Member.isProperty) := by
  let rest := declaration.members.filter fun member =>
    member.isProperty && !member.isIdentity
  have hids : declaration.members.filter Member.isIdentity =
      (declaration.members.filter Member.isProperty).filter Member.isIdentity := by
    rw [List.filter_filter]
    refine List.filter_congr fun member _ => ?_
    cases hbody : member.hasBody <;> simp [Member.isIdentity, Member.isProperty, hbody]
  have hrest : rest = (declaration.members.filter Member.isProperty).filter
      (!Member.isIdentity ·) := by
    rw [List.filter_filter]
    exact List.filter_congr fun member _ => Bool.and_comm ..
  have hexpressions : declaration.members.filter Member.isExpression =
      rest.filter Member.isExpression := by
    rw [List.filter_filter]
    refine List.filter_congr fun member _ => ?_
    cases hbody : member.hasBody <;>
      simp [Member.isIdentity, Member.isProperty, Member.isExpression, hbody]
  have hplain : declaration.members.filter Member.isPlain =
      rest.filter (!Member.isExpression ·) := by
    rw [List.filter_filter]
    refine List.filter_congr fun member _ => ?_
    cases hbody : member.hasBody <;>
      simp [Member.isIdentity, Member.isProperty, Member.isExpression, Member.isPlain, hbody]
  rw [Declaration.propertyMembers, hids, hexpressions, hplain, List.append_assoc]
  refine ((List.filter_append_perm _ rest).append_left _).trans ?_
  rw [hrest]
  exact List.filter_append_perm _ _

/-- The property that a legal member becomes. -/
def Member.specOf (source : Source) (member : Member) (id : Nat) : PropSpec where
  id := id
  name := member.name
  kind := member.kind source
  type := member.type
  tags := member.tags
  reference := (member.referent? source).map fun _ => member.type.innermost

/-- A member becomes a property exactly when its formula fits and, if it is computed, it refers
to no target of associations. -/
theorem Member.spec_eq_ok_iff {source : Source} {typeName : String} {member : Member} {id : Nat}
    {spec : PropSpec} :
    member.spec source typeName id = .ok spec ↔
      member.formulaFault? = none ∧
      ¬ ((member.kind source).isComputed ∧ member.refersToTarget source) ∧
      spec = member.specOf source id := by
  simp only [Member.spec, Except.mapError_eq_ok_iff, Except.bind_eq_ok_iff,
    succeedUnless_eq_ok_iff, exists_and_left, exists_const, Bool.and_eq_true, pure, Except.pure]
  refine and_congr_right fun _ => ?_
  split
  · next h => simp [h, throw, throwThe, MonadExceptOf.throw, bind, Except.bind]
  · next h =>
    simp only [h, not_false_eq_true, true_and]
    exact ⟨fun heq => (Except.ok.inj heq).symm, fun heq => congrArg Except.ok heq.symm⟩

/-- The members of a declaration become properties, one by one and with increasing numbers. -/
theorem Declaration.propSpecs_eq_ok_iff {source : Source} {declaration : Declaration}
    {last : Nat} {props : List PropSpec} :
    declaration.propSpecs source last = .ok props ↔
      List.Forall₂ (fun (entry : Member × Nat) spec =>
          entry.1.spec source declaration.qualifiedName entry.2 = .ok spec)
        (declaration.propertyMembers.zipIdx (last + 1)) props := by
  rw [Declaration.propSpecs, Except.mapM_eq_ok_iff]

/-- The properties of a declaration are what its members become. -/
theorem Declaration.eq_of_propSpecs {source : Source} {declaration : Declaration} {last : Nat}
    {props : List PropSpec} (h : declaration.propSpecs source last = .ok props) :
    props = (declaration.propertyMembers.zipIdx (last + 1)).map fun entry =>
      entry.1.specOf source entry.2 := by
  rw [propSpecs_eq_ok_iff] at h
  rw [← List.forall₂_eq_eq_eq, List.forall₂_map_right_iff]
  exact (h.imp fun _ _ hspec => (Member.spec_eq_ok_iff.1 hspec).2.2).flip

/-- Every property of a declaration is what one of its members becomes. -/
theorem Declaration.exists_member_of_propSpecs {source : Source} {declaration : Declaration}
    {last : Nat} {props : List PropSpec} (h : declaration.propSpecs source last = .ok props)
    {spec : PropSpec} (hspec : spec ∈ props) :
    ∃ member ∈ declaration.propertyMembers, ∃ id, spec = member.specOf source id := by
  rw [eq_of_propSpecs h] at hspec
  obtain ⟨⟨member, id⟩, hentry, rfl⟩ := List.mem_map.1 hspec
  exact ⟨member, List.fst_mem_of_mem_zipIdx hentry, id, rfl⟩

/-- Every member that becomes a property becomes one of the properties. -/
theorem Declaration.exists_spec_of_propSpecs {source : Source} {declaration : Declaration}
    {last : Nat} {props : List PropSpec} (h : declaration.propSpecs source last = .ok props)
    {member : Member} (hmember : member ∈ declaration.propertyMembers) :
    ∃ id, member.specOf source id ∈ props := by
  obtain ⟨id, hentry⟩ := List.exists_mem_zipIdx_of_mem hmember (last + 1)
  rw [eq_of_propSpecs h]
  exact ⟨id, List.mem_map_of_mem hentry⟩

/-- What does not depend on their numbers is the same of properties and of their members. -/
theorem Declaration.map_propSpecs {source : Source} {declaration : Declaration} {last : Nat}
    {props : List PropSpec} (h : declaration.propSpecs source last = .ok props) {α : Type}
    {f : PropSpec → α} {g : Member → α}
    (hfg : ∀ member id, f (member.specOf source id) = g member) :
    props.map f = declaration.propertyMembers.map g := by
  rw [eq_of_propSpecs h, List.map_map, Function.comp_def]
  simp only [hfg]
  rw [← List.zipIdx_map_fst (last + 1) declaration.propertyMembers, List.map_map,
    List.zipIdx_map_fst]
  rfl

/-- Properties keep the names of their members. -/
theorem Declaration.names_of_propSpecs {source : Source} {declaration : Declaration} {last : Nat}
    {props : List PropSpec} (h : declaration.propSpecs source last = .ok props) :
    props.map (·.name) = declaration.propertyMembers.map (·.name) :=
  map_propSpecs h fun _ _ => rfl

namespace Blueprint

variable (source : Source) (config : Config) (declaration : Declaration) (header : Header)
  (inherited : Option Inherited)

/-- What is needed to fill the special roles of a declaration with given properties. -/
def specialContext (props : List PropSpec) : SpecialContext where
  typeName := declaration.qualifiedName
  category := header.category
  inherited := (inherited.map (·.specials)).getD (Specials.tabulate fun _ => none)
  props := props

/-- The blueprint of a declaration with given properties, if it is legal. -/
def withProps (props : List PropSpec) : Blueprint where
  qualifiedName := declaration.qualifiedName
  package := declaration.package
  simpleName := declaration.simpleName
  category := header.category
  scope := header.scope
  props := props
  specials := (specialContext declaration header inherited props).slots
  names := .derive declaration.package declaration.simpleName header.category config.naming
  messages := header.messages

variable {source config declaration header inherited}

/-- A blueprint is built exactly when no check reports anything. -/
theorem ofDeclaration_eq_ok_iff {blueprint : Blueprint} :
    Blueprint.ofDeclaration source config declaration header inherited = .ok blueprint ↔
      inherited.bind header.ancestorFault? = none ∧
      memberViolation? declaration.qualifiedName [] declaration.members = none ∧
      ∃ props, declaration.propSpecs source ((inherited.map (·.maxPropId)).getD 0) = .ok props ∧
        overrideViolation? declaration.qualifiedName
          ((inherited.map (·.propNames)).getD []) props = none ∧
        (specialContext declaration header inherited props).violation? config = none ∧
        blueprint = withProps config declaration header inherited props := by
  simp only [Blueprint.ofDeclaration, Except.bind_eq_ok_iff, succeedUnless_eq_ok_iff,
    Option.map_eq_none_iff, exists_and_left, exists_const, pure, Except.pure, Except.ok.injEq]
  constructor
  · rintro ⟨hancestor, hmembers, props, hprops, hoverride, hspecials, rfl⟩
    exact ⟨hancestor, hmembers, props, hprops, hoverride, hspecials, rfl⟩
  · rintro ⟨hancestor, hmembers, props, hprops, hoverride, hspecials, rfl⟩
    exact ⟨hancestor, hmembers, props, hprops, hoverride, hspecials, rfl⟩

/-- Every slot that a property of the blueprint itself fills names one of its properties. -/
def SlotsFilled (blueprint : Blueprint) : Prop :=
  ∀ special index, blueprint.specials.get special = .own index → index < blueprint.props.length

/-- The slots of a legal blueprint are filled. -/
theorem slotsFilled_of_ofDeclaration {blueprint : Blueprint}
    (h : Blueprint.ofDeclaration source config declaration header inherited = .ok blueprint) :
    blueprint.SlotsFilled := by
  obtain ⟨-, -, props, -, -, -, rfl⟩ := ofDeclaration_eq_ok_iff.1 h
  intro special index hslot
  have hown : (specialContext declaration header inherited props).slot special = .own index :=
    (Specials.get_tabulate ..).symm.trans hslot
  obtain ⟨-, spec, hspec, -⟩ := SpecialContext.exists_of_slot_own hown
  exact (List.getElem?_eq_some_iff.1 hspec).1

end Blueprint

end Metamodel
