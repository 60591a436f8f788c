import Metamodel.Proofs.Alteration
import Metamodel.Property.Record

/-!
# What is written to the records of properties

A record is made from a member when the type of that is registered. It is written to when the
property is stepped, which settles it or makes it fail, and when no round is left to settle it.
`Registry.Writes` says so for everything that happens to a registry, and `Written` for all ways to
it. On each of them the records come out as the properties of the registry have it
(`Written.records_eq`). What does not apply is absent, because no writer ever leaves it behind
(`Written.isTidy`), and a record is written to no more once it is settled or has failed
(`Registry.keeps_of_writes`).
-/

namespace Metamodel

open Relation (ReflTransGen)

/-! ### Writers -/

/-- The kind of the property that a member becomes, with the database expression and the paths that
its formula has for that kind. -/
def Member.content (source : Source) (member : Member) :
    KindTag × Option String × List String :=
  match member.tags.formula? with
  | some formula =>
    if member.hasBody then (.expression, none, formula.dependencies)
    else (.sql, some formula.sql, [])
  | none => if member.refersToTarget source then (.association, none, []) else (.scalar, none, [])

/-- A member has a database expression and paths only where its kind asks for them. -/
theorem Member.content_tidy (source : Source) (member : Member) :
    let (kind, sql, dependencyPaths) := member.content source
    (kind = .expression → sql = none) ∧
      (kind = .sql → sql.isSome = true ∧ dependencyPaths = []) ∧
      (kind.isComputed = false → sql = none ∧ dependencyPaths = []) := by
  rw [content]
  cases member.tags.formula? with
  | some formula => cases member.hasBody <;> simp [KindTag.isComputed]
  | none => cases member.refersToTarget source <;> simp

/-- What a member has for its kind is what the kind carries. -/
theorem Member.content_eq (source : Source) (member : Member) :
    member.content source = ((member.kind source).tag, (member.kind source).sql?,
      (member.kind source).paths) := by
  rw [content, kind]
  cases member.tags.formula? with
  | some formula => cases member.hasBody <;> rfl
  | none => cases member.refersToTarget source <;> rfl

namespace PropertyRecord

/-- The record of a member of a type that is about to be registered: it is pending, with whatever
the declaration says up front. -/
def new (source : Source) (typeName : String) (key : TypeKey) (member : Member) (id : Nat) :
    Except Violation PropertyRecord :=
  let (kind, sql, dependencyPaths) := member.content source
  if kind.isComputed && member.refersToTarget source then
    .error (.ofMember typeName member.name (.computedAssociation member.type.innermost))
  else
    .ok {
      id
      name := member.name
      declaringType := key
      kind
      type := member.type
      tags := member.tags
      targetName := (member.referent? source).map fun _ => member.type.innermost
      sql
      dependencyPaths
      state := .pending
      resolvedRound := none
      target := none
      dependencies := [] }

/-- A step has settled the property. -/
def settle (round : Nat) (settlement : Settlement) (record : PropertyRecord) : PropertyRecord :=
  { record with
    state := .resolved
    resolvedRound := some round
    target := settlement.target
    dependencies := settlement.dependencies }

/-- A step has failed. -/
def fail (round : Nat) (record : PropertyRecord) : PropertyRecord :=
  { record with
    state := .failed
    resolvedRound := some round }

/-- No round is left. -/
def giveUp (record : PropertyRecord) : PropertyRecord :=
  { record with state := .failed }

/-- What a step makes of a record, given what an attempt at the property yields. -/
def step (round : Nat) (attempt : Except Fault (Option Settlement)) (record : PropertyRecord) :
    PropertyRecord :=
  if record.state = .pending then
    match attempt with
    | .ok none => record
    | .ok (some settlement) => record.settle round settlement
    | .error _ => record.fail round
  else record

/-- What the declaration says, which is written once and for all. -/
def declared (record : PropertyRecord) : PropertyRecord :=
  { record with
    state := .pending
    resolvedRound := none
    target := none
    dependencies := [] }

/-- What does not apply to the kind or to the state of a property is absent. -/
structure IsTidy (record : PropertyRecord) : Prop where
  expression : record.kind = .expression → record.sql = none
  sql : record.kind = .sql → record.sql.isSome = true ∧ record.dependencyPaths = []
  plain : record.kind.isComputed = false → record.sql = none ∧ record.dependencyPaths = []
  pending : record.state = .pending → record.resolvedRound = none
  unsettled : record.state ≠ .resolved → record.target = none ∧ record.dependencies = []

variable {record : PropertyRecord} {source : Source} {typeName : String} {key : TypeKey}
  {member : Member} {id : Nat}

/-- A new record is tidy. -/
theorem isTidy_of_new (h : new source typeName key member id = .ok record) : record.IsTidy := by
  obtain ⟨hexpression, hsql, hplain⟩ := member.content_tidy source
  simp only [new] at h
  split at h
  · cases h
  · cases h
    exact ⟨hexpression, hsql, hplain, fun _ => rfl, fun _ => ⟨rfl, rfl⟩⟩

/-- Settling writes all that a settled property has. -/
theorem IsTidy.settle (h : record.IsTidy) (round : Nat) (settlement : Settlement) :
    (record.settle round settlement).IsTidy :=
  { h with
    pending := nofun
    unsettled := fun hne => absurd rfl hne }

/-- Failing writes no target, and there was none before. -/
theorem IsTidy.fail (h : record.IsTidy) (hpending : record.state = .pending) (round : Nat) :
    (record.fail round).IsTidy :=
  { h with
    pending := nofun
    unsettled := fun _ => h.unsettled (by rw [hpending]; nofun) }

/-- Neither does giving up. -/
theorem IsTidy.giveUp (h : record.IsTidy) (hpending : record.state = .pending) :
    record.giveUp.IsTidy :=
  { h with
    pending := nofun
    unsettled := fun _ => h.unsettled (by rw [hpending]; nofun) }

theorem IsTidy.step (h : record.IsTidy) (round : Nat)
    (attempt : Except Fault (Option Settlement)) : (record.step round attempt).IsTidy := by
  unfold PropertyRecord.step
  split
  · next hpending =>
    split
    · exact h
    · exact h.settle round _
    · exact h.fail hpending round
  · exact h

/-- A property that has to wait is left alone. -/
theorem step_wait (record : PropertyRecord) (round : Nat) :
    record.step round (.ok none) = record := by
  unfold step
  split <;> rfl

theorem step_settle (hpending : record.state = .pending) (round : Nat) (settlement : Settlement) :
    record.step round (.ok (some settlement)) = record.settle round settlement :=
  if_pos hpending

theorem step_fail (hpending : record.state = .pending) (round : Nat) (fault : Fault) :
    record.step round (.error fault) = record.fail round :=
  if_pos hpending

/-- A step writes nothing that the declaration says, and nothing at all once the property is no
longer pending. -/
theorem step_keeps (record : PropertyRecord) (round : Nat)
    (attempt : Except Fault (Option Settlement)) :
    (record.step round attempt).declared = record.declared ∧
      (record.state ≠ .pending → record.step round attempt = record) := by
  unfold step
  split
  · next hpending =>
    refine ⟨?_, fun hne => absurd hpending hne⟩
    split <;> rfl
  · exact ⟨rfl, fun _ => rfl⟩

end PropertyRecord

/-! ### Writing -/

/-- The records of the members of a declaration, numbered from the one after `last`. -/
def Declaration.newRecords (source : Source) (declaration : Declaration) (key : TypeKey)
    (last : Nat) : Except Violation (List PropertyRecord) :=
  (declaration.propertyMembers.zipIdx (last + 1)).mapM fun (member, id) =>
    PropertyRecord.new source declaration.qualifiedName key member id

namespace Registry

/-- The records that are written when the construction of a type is over: one for each member that
becomes a property, and none if it has failed. -/
inductive Creates (source : Source) (declaration : Declaration) (ancestor : Option TypeKey)
    (registry : Registry) : Outcome TypeKey → List PropertyRecord → Prop where
  | members {key : TypeKey} {after : Registry} {created : List PropertyRecord} :
    declaration.newRecords source registry.graph.nextTypeKey
      ((ancestor.map registry.graph.maxPropId).getD 0) = .ok created →
    Creates source declaration ancestor registry ⟨.ok key, after⟩ created
  | nothing {violation : Violation} {after : Registry} :
    Creates source declaration ancestor registry ⟨.error violation, after⟩ []

/-- What is written to the records when something happens to a registry: new ones come last, a step
writes to that of its property, and giving up writes to that of what is given up. -/
inductive Writes (source : Source) (config : Config) :
    Registry × List PropertyRecord → Registry × List PropertyRecord → Prop where
  | enters {registry : Registry} {records : List PropertyRecord} (name : String) :
    Writes source config (registry, records) (registry.enter name, records)
  | leaves {registry : Registry} {records : List PropertyRecord} :
    Writes source config (registry, records) (registry.leave, records)
  | constructs {registry : Registry} {records created : List PropertyRecord} {name : String}
      {declaration : Declaration} {header : Header} {ancestor : Option TypeKey} :
    registry.graph.keyOf? name = none →
    name ∉ registry.inProgress →
    source.declaration? name = some declaration →
    Header.ofDeclaration source declaration = .ok header →
    header.ancestor.map registry.graph.keyOf? = ancestor.map some →
    registry.Creates source declaration ancestor
      (registry.construct source config declaration header ancestor) created →
    Writes source config (registry, records)
      ((registry.construct source config declaration header ancestor).registry, records ++ created)
  | steps {registry : Registry} {records : List PropertyRecord} {key : PropKey} {prop : Property}
      (round : Nat) :
    registry.graph.prop? key = some prop →
    Writes source config (registry, records) ((registry.resolveProperty round key).registry,
      records.modify key.index (·.step round (registry.graph.attempt prop)))
  | misses {registry : Registry} {records : List PropertyRecord} {key : PropKey} (round : Nat) :
    registry.graph.prop? key = none →
    Writes source config (registry, records) ((registry.resolveProperty round key).registry,
      records)
  | reports {registry : Registry} {records : List PropertyRecord} (round pending : Nat) :
    Writes source config (registry, records)
      (registry.record (.roundFinished round pending), records)
  | givesUp {registry : Registry} {records : List PropertyRecord} {key : PropKey} :
    key ∈ registry.graph.pending →
    Writes source config (registry, records) (registry.setResolution key (.failed none),
      records.modify key.index (·.giveUp))

end Registry

/-- The records are those that are written on some way from the empty registry. -/
def Written (source : Source) (config : Config) (registry : Registry)
    (records : List PropertyRecord) : Prop :=
  ReflTransGen (Registry.Writes source config) ({}, []) (registry, records)

/-! ### Records of properties -/

section Refinement

variable {source : Source} {typeName : String} {key : TypeKey} {member : Member} {id : Nat}
  {prop : Property}

/-- What is written when a member is registered is what its property has. -/
theorem PropertyRecord.new_eq_ok {spec : PropSpec}
    (h : member.spec source typeName id = .ok spec) :
    new source typeName key member id =
      .ok ({ spec with declaringType := key } : Property).record := by
  obtain ⟨-, hlegal, rfl⟩ := Member.spec_eq_ok_iff.1 h
  have hcontent := member.content_eq source
  simp only [new, hcontent]
  rw [if_neg (by simpa [PropertyKind.isComputed] using hlegal)]
  rfl

/-- The records of the members of a declaration are those of its properties. -/
theorem Declaration.newRecords_eq_ok {declaration : Declaration} {last : Nat}
    {specs : List PropSpec} (h : declaration.propSpecs source last = .ok specs) :
    declaration.newRecords source key last =
      .ok (specs.map fun spec => ({ spec with declaringType := key } : Property).record) := by
  rw [newRecords, Except.mapM_eq_ok_iff, List.forall₂_map_right_iff]
  exact (Declaration.propSpecs_eq_ok_iff.1 h).imp fun _ _ => PropertyRecord.new_eq_ok

theorem Property.state_record (hpending : prop.resolution = .pending) :
    prop.record.state = .pending := by
  rw [record, hpending]
  rfl

/-- What is written to the record of a pending property is what becomes of the property. -/
theorem Property.record_fail (hpending : prop.resolution = .pending) (round : Nat) :
    { prop with resolution := .failed (some round) }.record = prop.record.fail round := by
  simp only [record, PropertyRecord.fail, hpending]
  rfl

theorem Property.record_giveUp (hpending : prop.resolution = .pending) :
    { prop with resolution := .failed none }.record = prop.record.giveUp := by
  simp only [record, PropertyRecord.giveUp, hpending]
  rfl

/-- The record of a property is in its place. -/
theorem Graph.getElem?_map_record {graph : Graph} {key : PropKey}
    (hkey : graph.prop? key = some prop) :
    (graph.props.map Property.record)[key.index]? = some prop.record := by
  rw [List.getElem?_map, show graph.props[key.index]? = some prop from hkey, Option.map_some]

/-- Where a new resolution is what is written, the records stay those of the properties. -/
theorem Graph.map_record_setResolution {graph : Graph} {key : PropKey} {resolution : Resolution}
    (hkey : graph.prop? key = some prop) {write : PropertyRecord → PropertyRecord}
    (hwrite : { prop with resolution }.record = write prop.record) :
    (graph.setResolution key resolution).props.map Property.record =
      (graph.props.map Property.record).modify key.index write := by
  apply List.ext_getElem?
  intro index
  simp only [setResolution, modifyProp, List.getElem?_map, List.getElem?_modify]
  by_cases hindex : key.index = index
  · have hprop : graph.props[index]? = some prop := hindex ▸ hkey
    simp [hprop, hindex, hwrite]
  · simp [hindex]

/-- A construction that succeeds has a record to write for each property that it adds. -/
theorem Registry.newRecords_of_construct {config : Config} {registry after : Registry}
    {declaration : Declaration} {header : Header} {ancestor : Option TypeKey}
    (h : registry.construct source config declaration header ancestor = ⟨.ok key, after⟩) :
    ∃ created, declaration.newRecords source registry.graph.nextTypeKey
        ((ancestor.map registry.graph.maxPropId).getD 0) = .ok created ∧
      after.graph.props.map Property.record =
        registry.graph.props.map Property.record ++ created := by
  have hlast : ((ancestor.bind registry.graph.inherited?).map (·.maxPropId)).getD 0 =
      (ancestor.map registry.graph.maxPropId).getD 0 := by
    cases ancestor with
    | none => rfl
    | some parent =>
      rw [Option.bind_some, Option.map_some, Option.getD_some, Graph.inherited?]
      cases htype : registry.graph.type? parent with
      | some type => rfl
      | none =>
        rw [Graph.maxPropId, Graph.mergedProps, htype]
        rfl
  rw [construct] at h
  cases hblueprint : Blueprint.ofDeclaration source config declaration header
      (ancestor.bind registry.graph.inherited?) with
  | error violation =>
    rw [hblueprint] at h
    cases h
  | ok blueprint =>
    rw [hblueprint] at h
    cases h
    obtain ⟨-, -, props, hprops, -, -, rfl⟩ := Blueprint.ofDeclaration_eq_ok_iff.1 hblueprint
    rw [hlast] at hprops
    refine ⟨_, Declaration.newRecords_eq_ok hprops, ?_⟩
    simp [Graph.add, Graph.placeProps, Blueprint.withProps, Registry.record]

end Refinement

/-! ### Runs -/

/-- To change an item to itself is to change nothing. -/
theorem List.modify_eq_self {α : Type} {items : List α} {index : Nat} {f : α → α}
    (h : ∀ item, items[index]? = some item → f item = item) : items.modify index f = items := by
  apply List.ext_getElem?
  intro place
  rw [List.getElem?_modify]
  split
  · next hindex =>
    subst hindex
    cases hitem : items[index]? with
    | none => rfl
    | some item => exact congrArg some (h item hitem)
  · exact Option.map_id_apply

/-- What is in a list with one item changed was there before, or is that item changed. -/
theorem List.mem_or_eq_of_mem_modify {α : Type} {items : List α} {index : Nat} {f : α → α}
    {item : α} (h : item ∈ items.modify index f) :
    item ∈ items ∨ ∃ old, items[index]? = some old ∧ item = f old := by
  obtain ⟨place, hplace⟩ := List.getElem?_of_mem h
  rw [List.getElem?_modify] at hplace
  split at hplace
  · next hindex =>
    obtain ⟨old, hold, rfl⟩ := Option.map_eq_some_iff.1 hplace
    exact .inr ⟨old, hindex ▸ hold, rfl⟩
  · exact .inl (List.mem_of_getElem? (by simpa using hplace))

/-- Records are kept: each is in its place, with all that the declaration says, and as it was unless
it was pending. -/
def PropertyRecord.Keeps (records later : List PropertyRecord) : Prop :=
  ∀ (index : Nat) (record : PropertyRecord), records[index]? = some record →
    ∃ record' : PropertyRecord, later[index]? = some record' ∧
      record'.declared = record.declared ∧ (record.state ≠ .pending → record' = record)

namespace PropertyRecord.Keeps

theorem refl (records : List PropertyRecord) : Keeps records records :=
  fun _ record hrecord => ⟨record, hrecord, rfl, fun _ => rfl⟩

theorem trans {first second third : List PropertyRecord} (h : Keeps first second)
    (h' : Keeps second third) : Keeps first third := by
  intro index record hrecord
  obtain ⟨record', hrecord', hdeclared, hkept⟩ := h index record hrecord
  obtain ⟨last, hlast, hdeclared', hkept'⟩ := h' index record' hrecord'
  refine ⟨last, hlast, hdeclared'.trans hdeclared, fun hne => ?_⟩
  obtain rfl := hkept hne
  exact hkept' hne

theorem append (records created : List PropertyRecord) : Keeps records (records ++ created) := by
  intro index record hrecord
  have hlt := (List.getElem?_eq_some_iff.1 hrecord).1
  exact ⟨record, by rw [List.getElem?_append_left hlt, hrecord], rfl, fun _ => rfl⟩

/-- One record is written to, and that in a way that keeps it. -/
theorem modify {records : List PropertyRecord} {index : Nat}
    {write : PropertyRecord → PropertyRecord}
    (hwrite : ∀ record, records[index]? = some record →
      (write record).declared = record.declared ∧
        (record.state ≠ .pending → write record = record)) :
    Keeps records (records.modify index write) := by
  intro place record hrecord
  by_cases hindex : index = place
  · subst hindex
    obtain ⟨hdeclared, hkept⟩ := hwrite record hrecord
    exact ⟨write record, by simp [hrecord], hdeclared, hkept⟩
  · exact ⟨record, by simp [hindex, hrecord], rfl, fun _ => rfl⟩

end PropertyRecord.Keeps

namespace Registry

variable {source : Source} {config : Config} {start finish : Registry × List PropertyRecord}
  {before after : Registry}

/-- The records are those of the properties of the registry. -/
def Agrees (state : Registry × List PropertyRecord) : Prop :=
  state.2 = state.1.graph.props.map Property.record

/-- The record of a pending property is pending. -/
theorem Agrees.state_eq_pending (h : Agrees start) {key : PropKey}
    (hkey : key ∈ start.1.graph.pending) {record : PropertyRecord}
    (hrecord : start.2[key.index]? = some record) : record.state = .pending := by
  obtain ⟨prop, hprop, hpending⟩ := Graph.mem_pending.1 hkey
  rw [h, Graph.getElem?_map_record hprop, Option.some.injEq] at hrecord
  rw [← hrecord, Property.state_record hpending]

/-- What a step writes is what becomes of the property. -/
theorem Step.map_record {registry : Registry} {round : Nat} {key : PropKey}
    {outcome : Outcome Bool} (hstep : Step round key registry outcome) {prop : Property}
    (hkey : registry.graph.prop? key = some prop) :
    outcome.registry.graph.props.map Property.record =
      (registry.graph.props.map Property.record).modify key.index
        (·.step round (registry.graph.attempt prop)) := by
  have hrecord {record : PropertyRecord}
      (h : (registry.graph.props.map Property.record)[key.index]? = some record) :
      record = prop.record :=
    Option.some.inj (h.symm.trans (Graph.getElem?_map_record hkey))
  cases hstep with
  | idle hidle =>
    refine (List.modify_eq_self fun record h => (record.step_keeps _ _).2 ?_).symm
    rw [Graph.mem_pending_iff hkey] at hidle
    rw [hrecord h, Property.record]
    cases hresolution : prop.resolution with
    | pending => exact absurd hresolution hidle
    | resolved _ _ _ | failed _ => nofun
  | waits hother hpending hattempt =>
    obtain rfl := Option.some.inj (hkey.symm.trans hother)
    rw [hattempt]
    exact (List.modify_eq_self fun record _ => record.step_wait round).symm
  | settles hother hpending hattempt =>
    obtain rfl := Option.some.inj (hkey.symm.trans hother)
    refine Graph.map_record_setResolution hkey ?_
    rw [hattempt, PropertyRecord.step_settle (Property.state_record hpending)]
    rfl
  | fails hother hpending hattempt =>
    obtain rfl := Option.some.inj (hkey.symm.trans hother)
    refine Graph.map_record_setResolution hkey ?_
    rw [hattempt, PropertyRecord.step_fail (Property.state_record hpending)]
    exact Property.record_fail hpending round

/-- A construction that fails leaves the registry as it was. -/
theorem registry_eq_of_construct_error {registry : Registry} {declaration : Declaration}
    {header : Header} {ancestor : Option TypeKey} {violation : Violation}
    (h : registry.construct source config declaration header ancestor =
      ⟨.error violation, after⟩) : after = registry := by
  rw [construct] at h
  split at h <;> cases h
  rfl

/-- Whatever happens to a registry, what is written is what becomes of the properties. -/
theorem Writes.agrees (h : Writes source config start finish) (hstart : Agrees start) :
    Agrees finish := by
  cases h with
  | enters name => exact hstart
  | leaves => exact hstart
  | reports round pending => exact hstart
  | @constructs registry records created name declaration header ancestor _ _ _ _ _ hcreates =>
    have hagrees : records = registry.graph.props.map Property.record := hstart
    cases houtcome : registry.construct source config declaration header ancestor with
    | mk result after =>
      rw [houtcome] at hcreates
      cases hcreates with
      | members hcreated =>
        obtain ⟨created', hcreated', hprops⟩ := newRecords_of_construct houtcome
        obtain rfl := Except.ok.inj (hcreated.symm.trans hcreated')
        rw [Agrees, hprops, hagrees]
      | nothing =>
        rw [Agrees, registry_eq_of_construct_error houtcome, hagrees, List.append_nil]
  | @steps registry records key prop round hkey =>
    have hagrees : records = registry.graph.props.map Property.record := hstart
    rw [Agrees, (resolveProperty_step round key registry).map_record hkey, hagrees]
  | @misses registry records key round hkey =>
    rw [Agrees, resolveProperty, hkey]
    exact hstart
  | @givesUp registry records key hkey =>
    have hagrees : records = registry.graph.props.map Property.record := hstart
    obtain ⟨prop, hprop, hpending⟩ := Graph.mem_pending.1 hkey
    rw [Agrees, hagrees]
    exact (Graph.map_record_setResolution hprop (Property.record_giveUp hpending)).symm

/-- The records that a construction writes are tidy. -/
theorem Creates.isTidy {registry : Registry} {declaration : Declaration}
    {ancestor : Option TypeKey} {outcome : Outcome TypeKey} {created : List PropertyRecord}
    (h : registry.Creates source declaration ancestor outcome created) :
    ∀ record ∈ created, record.IsTidy := by
  cases h with
  | nothing => simp
  | members hcreated =>
    intro record hrecord
    rw [Declaration.newRecords, Except.mapM_eq_ok_iff] at hcreated
    obtain ⟨entry, -, hmade⟩ := List.Forall₂.exists_of_mem hcreated.flip hrecord
    exact PropertyRecord.isTidy_of_new hmade

/-- Every construction has records to write, or none. -/
theorem exists_creates (source : Source) (config : Config) (declaration : Declaration)
    (header : Header) (ancestor : Option TypeKey) (registry : Registry) :
    ∃ created, registry.Creates source declaration ancestor
      (registry.construct source config declaration header ancestor) created := by
  cases houtcome : registry.construct source config declaration header ancestor with
  | mk result after =>
    cases result with
    | error violation => exact ⟨[], .nothing⟩
    | ok key =>
      obtain ⟨created, hcreated, -⟩ := newRecords_of_construct houtcome
      exact ⟨created, .members hcreated⟩

/-- Nor is anything written that does not apply. -/
theorem Writes.isTidy (h : Writes source config start finish) (hstart : Agrees start)
    (htidy : ∀ record ∈ start.2, record.IsTidy) : ∀ record ∈ finish.2, record.IsTidy := by
  cases h with
  | enters _ | leaves | misses _ _ | reports _ _ => exact htidy
  | constructs _ _ _ _ _ hcreates =>
    intro record hrecord
    rcases List.mem_append.1 hrecord with hold | hnew
    · exact htidy record hold
    · exact hcreates.isTidy record hnew
  | steps round _ =>
    intro record hrecord
    rcases List.mem_or_eq_of_mem_modify hrecord with hold | ⟨old, hold, rfl⟩
    · exact htidy record hold
    · exact (htidy old (List.mem_of_getElem? hold)).step round _
  | givesUp hkey =>
    intro record hrecord
    rcases List.mem_or_eq_of_mem_modify hrecord with hold | ⟨old, hold, rfl⟩
    · exact htidy record hold
    · exact (htidy old (List.mem_of_getElem? hold)).giveUp (hstart.state_eq_pending hkey hold)

/-- Records are kept. -/
theorem Writes.keeps (h : Writes source config start finish) (hstart : Agrees start) :
    PropertyRecord.Keeps start.2 finish.2 := by
  cases h with
  | enters _ | leaves | misses _ _ | reports _ _ => exact .refl _
  | constructs => exact .append _ _
  | steps round _ => exact .modify fun record _ => record.step_keeps round _
  | givesUp hkey =>
    refine .modify fun record hrecord => ⟨rfl, fun hne => ?_⟩
    exact absurd (hstart.state_eq_pending hkey hrecord) hne

/-- So it is for all that is written one after the other. -/
theorem agrees_of_writes (h : ReflTransGen (Writes source config) start finish)
    (hstart : Agrees start) : Agrees finish := by
  induction h with
  | refl => exact hstart
  | tail _ hlast ih => exact hlast.agrees ih

theorem keeps_of_writes (h : ReflTransGen (Writes source config) start finish)
    (hstart : Agrees start) : PropertyRecord.Keeps start.2 finish.2 := by
  induction h with
  | refl => exact .refl _
  | tail hwrites hlast ih => exact ih.trans (hlast.keeps (agrees_of_writes hwrites hstart))

/-- For everything that happens to a registry there is something that is written. -/
theorem Alters.exists_writes (h : Alters source config before after)
    (records : List PropertyRecord) :
    ∃ later, Writes source config (before, records) (after, later) := by
  cases h with
  | enters name => exact ⟨_, .enters name⟩
  | leaves => exact ⟨_, .leaves⟩
  | @constructs name declaration header ancestor hnew hidle hdeclared hheader hancestor =>
    obtain ⟨created, hcreates⟩ := exists_creates source config declaration header ancestor before
    exact ⟨_, .constructs hnew hidle hdeclared hheader hancestor hcreates⟩
  | steps round key =>
    cases hkey : before.graph.prop? key with
    | none => exact ⟨_, .misses round hkey⟩
    | some prop => exact ⟨_, .steps round hkey⟩
  | reports round pending => exact ⟨_, .reports round pending⟩
  | givesUp hkey => exact ⟨_, .givesUp hkey⟩

theorem exists_writes_of_alters (h : ReflTransGen (Alters source config) before after)
    (records : List PropertyRecord) :
    ∃ later, ReflTransGen (Writes source config) (before, records) (after, later) := by
  induction h with
  | refl => exact ⟨records, .refl⟩
  | tail _ hlast ih =>
    obtain ⟨middle, hmiddle⟩ := ih
    obtain ⟨later, hlater⟩ := hlast.exists_writes middle
    exact ⟨later, hmiddle.tail hlater⟩

end Registry

variable {source : Source} {config : Config} {registry before after : Registry}
  {records : List PropertyRecord}

/-- On whatever way they are written, the records are those of the properties of the registry. -/
theorem Written.records_eq (h : Written source config registry records) :
    records = registry.graph.props.map Property.record :=
  Registry.agrees_of_writes h rfl

/-- What does not apply is absent from them. -/
theorem Written.isTidy (h : Written source config registry records) :
    ∀ record ∈ records, record.IsTidy := by
  have hrun {finish : Registry × List PropertyRecord}
      (h : ReflTransGen (Registry.Writes source config) ({}, []) finish) :
      ∀ record ∈ finish.2, record.IsTidy := by
    induction h with
    | refl => simp
    | tail hwrites hlast ih => exact hlast.isTidy (Registry.agrees_of_writes hwrites rfl) ih
  exact hrun h

/-- Every way to a registry has its records. -/
theorem Reachable.exists_written (h : Reachable source config registry) :
    ∃ records, Written source config registry records :=
  Registry.exists_writes_of_alters (LeadsTo.alters h .empty) []

end Metamodel
