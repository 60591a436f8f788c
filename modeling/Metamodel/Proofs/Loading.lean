import Metamodel.Config.Text
import Metamodel.Proofs.Blueprint.Checks
import Metamodel.Proofs.Suffixes
import Metamodel.Proofs.Toml.Keys

/-!
# Loading a configuration

A configuration is built from a document by three nested passes, each of which goes through the
entries of a table in the order in which a reader hands them over. If no key stands in a table
twice, the order does not matter: `Document.IsTyped` says which documents the passes accept and
`Config.Follows` what they give, both in terms of what the document says and without any order.
Suffixes are looked at afterwards, so a mistake of theirs is reported only where there is no other
(`Config.Loads`). All of this holds of every reader that keeps keys apart; `tomlReader` does.
-/

namespace Metamodel

open Text (IsFragment)

namespace Document

/-- No key stands twice in the document, or in a table under one of its keys. -/
structure HasDistinctKeys (entries : DocumentEntries) : Prop where
  nodup : (entries.map (·.1)).Nodup
  tables : ∀ key inner, (key, .table inner) ∈ entries → (inner.map (·.1)).Nodup

/-- The document has a value under a key of a table. -/
def Says (entries : DocumentEntries) (table key : String) (value : DocumentValue) : Prop :=
  ∃ inner, (table, DocumentValue.table inner) ∈ entries ∧ (key, value) ∈ inner

/-- The document says nothing but what a configuration may say, in values of the right types. -/
structure IsTyped (entries : DocumentEntries) : Prop where
  tables : ∀ entry ∈ entries, entry.1 = "validation" ∨ entry.1 = "naming"
  validation : ∀ key value, Says entries "validation" key value →
    key = "require_entity_id" ∧ ∃ b, value = .boolean b
  naming : ∀ key value, Says entries "naming" key value →
    (∃ role : SuffixRole, key = role.key) ∧ ∃ suffix, value = .string suffix

/-- The document gives a suffix for a role. -/
def GivesSuffix (entries : DocumentEntries) (role : SuffixRole) (suffix : String) : Prop :=
  Says entries "naming" role.key (.string suffix)

/-- What the document calls the sections of a configuration are tables. -/
def HasSections (entries : DocumentEntries) : Prop :=
  ∀ entry ∈ entries, entry.1 = "validation" ∨ entry.1 = "naming" → ∃ inner, entry.2 = .table inner

end Document

open Document

/-- In the documents that the reader hands over, no key is defined twice. -/
def DocumentReader.KeepsKeysApart (reader : DocumentReader) : Prop :=
  ∀ text entries, reader.read? text = some entries → HasDistinctKeys entries

/-- A configuration is as the document says, and the default one where that says nothing. -/
structure Config.Follows (config : Config) (entries : DocumentEntries) : Prop where
  requirement : ∀ b, Says entries "validation" "require_entity_id" (.boolean b) →
    config.requireEntityId = b
  requirement_default : (∀ value, ¬ Says entries "validation" "require_entity_id" value) →
    config.requireEntityId = ({} : Config).requireEntityId
  suffix : ∀ role suffix, GivesSuffix entries role suffix → config.naming.suffix role = suffix
  suffix_default : ∀ role, (∀ value, ¬ Says entries "naming" role.key value) →
    config.naming.suffix role = ({} : Config).naming.suffix role

/-- The text could not be parsed as a configuration, be it no document or one that says something
else. -/
def ConfigError.IsParse (error : ConfigError) : Prop :=
  error = .malformed ∨ ∃ mistake, error = .schema mistake

/-- A suffix that the document gives is no fragment, and those of earlier roles are. -/
structure Document.FirstUnfit (entries : DocumentEntries) (role : SuffixRole)
    (suffix : String) : Prop where
  gives : GivesSuffix entries role suffix
  unfit : ¬ IsFragment suffix
  first : ∃ before after,
    [.draft, .table, .fetcher, .props, .propExpression] = before ++ role :: after ∧
      ∀ earlier ∈ before, ∀ other, GivesSuffix entries earlier other → IsFragment other

/-- What becomes of a text that a reader takes for a document. -/
structure Config.Loads (reader : DocumentReader) (text : String)
    (entries : DocumentEntries) : Prop where
  ok_iff : (∃ config, Config.parseWith reader text = .ok config) ↔
    IsTyped entries ∧ ∀ role suffix, GivesSuffix entries role suffix → IsFragment suffix
  follows : ∀ config, Config.parseWith reader text = .ok config → config.Follows entries
  /-- Whether suffixes are fit does not matter here. -/
  untyped : ¬ IsTyped entries →
    ∃ error, Config.parseWith reader text = .error error ∧ error.IsParse
  unfit : IsTyped entries →
    (∃ role suffix, GivesSuffix entries role suffix ∧ ¬ IsFragment suffix) →
      ∃ role suffix, FirstUnfit entries role suffix ∧
        Config.parseWith reader text = .error (.invalid (.ofSuffix role suffix))

/-! ### Passes over entries -/

section Passes

variable {ε α β : Type} {step : β → α → Except ε β} {items : List α} {start result : β}

/-- A pass succeeds exactly when every step does, if that depends on the item alone. -/
theorem Except.exists_foldlM_ok_iff {P : α → Prop}
    (h : ∀ item state, (∃ next, step state item = .ok next) ↔ P item) :
    (∃ result, items.foldlM step start = .ok result) ↔ ∀ item ∈ items, P item := by
  induction items generalizing start with
  | nil => simp [pure, Except.pure]
  | cons item rest ih =>
    simp only [List.foldlM_cons, Except.bind_eq_ok_iff, List.forall_mem_cons, ← h item start]
    constructor
    · rintro ⟨result, next, hnext, hresult⟩
      exact ⟨⟨next, hnext⟩, ih.1 ⟨result, hresult⟩⟩
    · rintro ⟨⟨next, hnext⟩, hrest⟩
      obtain ⟨result, hresult⟩ := ih.2 hrest
      exact ⟨result, next, hnext, hresult⟩

/-- What every step keeps, a pass keeps. -/
theorem Except.foldlM_keeps {P : β → Prop}
    (hkeeps : ∀ item ∈ items, ∀ state next, P state → step state item = .ok next → P next)
    (hstart : P start) (h : items.foldlM step start = .ok result) : P result := by
  induction items generalizing start with
  | nil =>
    cases h
    exact hstart
  | cons item rest ih =>
    rw [List.foldlM_cons, Except.bind_eq_ok_iff] at h
    obtain ⟨next, hnext, h⟩ := h
    obtain ⟨hitem, hrest⟩ := List.forall_mem_cons.1 hkeeps
    exact ih hrest (hitem start next hstart hnext) h

/-- What a step brings about for its item is there after the pass, if the steps for other items keep
it. -/
theorem Except.foldlM_reflects {S : α → α → Prop} {R : α → β → Prop}
    (hstep : ∀ item state next, step state item = .ok next → R item next)
    (hkeeps : ∀ item other state next, S item other → R item state →
      step state other = .ok next → R item next)
    (hitems : items.Pairwise S) (h : items.foldlM step start = .ok result) :
    ∀ item ∈ items, R item result := by
  induction items generalizing start with
  | nil => simp
  | cons item rest ih =>
    rw [List.foldlM_cons, Except.bind_eq_ok_iff] at h
    obtain ⟨next, hnext, h⟩ := h
    obtain ⟨hitem, hrest⟩ := List.pairwise_cons.1 hitems
    refine List.forall_mem_cons.2 ⟨?_, ih hrest h⟩
    have hkept (other : α) (hother : other ∈ rest) (state next : β) (hstate : R item state)
        (hnext : step state other = .ok next) : R item next :=
      hkeeps item other state next (hitem other hother) hstate hnext
    exact foldlM_keeps hkept (hstep item start next hnext) h

end Passes

/-! ### The three tables -/

theorem SuffixRole.ofKey?_eq_some_iff {text : String} {role : SuffixRole} :
    ofKey? text = some role ↔ text = role.key := by
  constructor
  · intro h
    simpa [eq_comm] using List.find?_some h
  · rintro rfl
    exact ofKey?_key role

theorem SuffixRole.key_inj {role other : SuffixRole} : role.key = other.key ↔ role = other := by
  rw [← ofKey?_eq_some_iff, ofKey?_key, Option.some.injEq]

theorem stringValue_eq_ok_iff {value : DocumentValue} {text : String} :
    stringValue value = .ok text ↔ value = .string text := by
  cases value <;> simp [stringValue]

theorem booleanValue_eq_ok_iff {value : DocumentValue} {b : Bool} :
    booleanValue value = .ok b ↔ value = .boolean b := by
  cases value <;> simp [booleanValue]

namespace Naming

variable {naming next : Naming} {entry : String × DocumentValue} {inner : DocumentEntries}

/-- An entry of the naming is a suffix under the key of a role. -/
theorem setEntry_eq_ok_iff :
    naming.setEntry entry = .ok next ↔
      ∃ role suffix, entry = (role.key, .string suffix) ∧ next = naming.withSuffix role suffix := by
  obtain ⟨key, value⟩ := entry
  rw [setEntry]
  cases hrole : SuffixRole.ofKey? key with
  | none =>
    simp only [reduceCtorEq, Prod.mk.injEq, false_iff, not_exists]
    rintro role suffix ⟨⟨rfl, -⟩, -⟩
    rw [SuffixRole.ofKey?_key] at hrole
    cases hrole
  | some role =>
    obtain rfl := SuffixRole.ofKey?_eq_some_iff.1 hrole
    simp only [Except.map_eq_ok_iff, stringValue_eq_ok_iff, Prod.mk.injEq, SuffixRole.key_inj]
    constructor
    · rintro ⟨suffix, rfl, rfl⟩
      exact ⟨role, suffix, ⟨rfl, rfl⟩, rfl⟩
    · rintro ⟨_, suffix, ⟨rfl, rfl⟩, rfl⟩
      exact ⟨suffix, rfl, rfl⟩

/-- A table describes a naming exactly when all its entries are suffixes. -/
theorem exists_ofValue_ok_iff :
    (∃ naming, ofValue (.table inner) = .ok naming) ↔
      ∀ entry ∈ inner, ∃ (role : SuffixRole) (suffix : String),
        entry = (role.key, .string suffix) := by
  rw [ofValue, Except.exists_foldlM_ok_iff (P := fun entry =>
    ∃ (role : SuffixRole) (suffix : String), entry = (role.key, .string suffix))]
  · intro entry naming
    simp only [setEntry_eq_ok_iff]
    constructor
    · rintro ⟨_, role, suffix, hentry, -⟩
      exact ⟨role, suffix, hentry⟩
    · rintro ⟨role, suffix, hentry⟩
      exact ⟨_, role, suffix, hentry, rfl⟩

/-- It is the one that has these suffixes. -/
theorem suffix_of_ofValue (hkeys : (inner.map (·.1)).Nodup)
    (h : ofValue (.table inner) = .ok naming) {role : SuffixRole} {suffix : String}
    (hentry : (role.key, .string suffix) ∈ inner) : naming.suffix role = suffix := by
  refine Except.foldlM_reflects (S := fun entry other => entry.1 ≠ other.1)
    (R := fun entry naming => entry = (role.key, .string suffix) → naming.suffix role = suffix)
    ?_ ?_ (List.pairwise_map.1 hkeys) h _ hentry rfl
  · rintro _ naming next hstep rfl
    obtain ⟨other, text, heq, rfl⟩ := setEntry_eq_ok_iff.1 hstep
    simp only [Prod.mk.injEq, SuffixRole.key_inj, DocumentValue.string.injEq] at heq
    obtain ⟨rfl, rfl⟩ := heq
    rw [suffix_withSuffix, if_pos rfl]
  · rintro _ other naming next hne hkept hstep rfl
    obtain ⟨role', text, rfl, rfl⟩ := setEntry_eq_ok_iff.1 hstep
    rw [suffix_withSuffix, if_neg, hkept rfl]
    rintro rfl
    exact hne rfl

/-- For roles without an entry it has the suffixes of the default. -/
theorem suffix_of_ofValue_of_not_mem (h : ofValue (.table inner) = .ok naming)
    {role : SuffixRole} (hnone : ∀ value, (role.key, value) ∉ inner) :
    naming.suffix role = ({} : Naming).suffix role := by
  refine Except.foldlM_keeps (P := fun naming => naming.suffix role = ({} : Naming).suffix role)
    ?_ rfl h
  intro entry hentry naming next hkept hstep
  obtain ⟨other, text, rfl, rfl⟩ := setEntry_eq_ok_iff.1 hstep
  rw [suffix_withSuffix, if_neg, hkept]
  rintro rfl
  exact hnone _ hentry

end Naming

section Requirement

variable {entry : String × DocumentValue} {inner : DocumentEntries} {b b' : Bool}

theorem requirementOfEntry_eq_ok_iff :
    requirementOfEntry entry = .ok b ↔ entry = ("require_entity_id", .boolean b) := by
  obtain ⟨key, value⟩ := entry
  rw [requirementOfEntry]
  split
  · next hkey =>
    simp only at hkey
    simp [hkey, booleanValue_eq_ok_iff]
  · next hkey =>
    simp only at hkey
    simp [hkey]

/-- A table describes the requirement exactly when it has nothing else. -/
theorem exists_requirementOfValue_ok_iff :
    (∃ b, requirementOfValue (.table inner) = .ok b) ↔
      ∀ entry ∈ inner, ∃ b, entry = ("require_entity_id", .boolean b) := by
  rw [requirementOfValue, Except.exists_foldlM_ok_iff (P := fun entry =>
    ∃ b, entry = ("require_entity_id", .boolean b))]
  simp only [requirementOfEntry_eq_ok_iff, implies_true]

theorem requirement_of_requirementOfValue (hkeys : (inner.map (·.1)).Nodup)
    (h : requirementOfValue (.table inner) = .ok b)
    (hentry : ("require_entity_id", .boolean b') ∈ inner) : b = b' := by
  refine Except.foldlM_reflects (S := fun entry other => entry.1 ≠ other.1)
    (R := fun entry b => entry = ("require_entity_id", .boolean b') → b = b')
    ?_ ?_ (List.pairwise_map.1 hkeys) h _ hentry rfl
  · rintro _ _ next hstep rfl
    simpa [eq_comm] using requirementOfEntry_eq_ok_iff.1 hstep
  · rintro _ other _ next hne - hstep rfl
    rw [requirementOfEntry_eq_ok_iff.1 hstep] at hne
    exact absurd rfl hne

theorem requirement_of_requirementOfValue_of_not_mem
    (h : requirementOfValue (.table inner) = .ok b)
    (hnone : ∀ value, ("require_entity_id", value) ∉ inner) : b = true := by
  refine Except.foldlM_keeps (P := (· = true)) ?_ rfl h
  intro entry hentry _ next _ hstep
  rw [requirementOfEntry_eq_ok_iff.1 hstep] at hentry
  exact absurd hentry (hnone _)

end Requirement

namespace Config

variable {config next : Config} {entry : String × DocumentValue} {entries : DocumentEntries}

/-- An entry of the document is one of the two sections. -/
theorem setEntry_eq_ok_iff :
    config.setEntry entry = .ok next ↔
      (entry.1 = "naming" ∧ ∃ naming, Naming.ofValue entry.2 = .ok naming ∧
        { config with naming } = next) ∨
      (entry.1 = "validation" ∧ ∃ requireEntityId,
        requirementOfValue entry.2 = .ok requireEntityId ∧
          { config with requireEntityId } = next) := by
  rw [setEntry]
  split
  · next hnaming => simp [hnaming, Except.map_eq_ok_iff]
  · next hnaming =>
    split
    · next hvalidation => simp [hvalidation, Except.map_eq_ok_iff]
    · next hvalidation => simp [hnaming, hvalidation]

theorem exists_setEntry_ok_iff :
    (∃ next, config.setEntry entry = .ok next) ↔
      (entry.1 = "naming" ∧ ∃ naming, Naming.ofValue entry.2 = .ok naming) ∨
      (entry.1 = "validation" ∧ ∃ b, requirementOfValue entry.2 = .ok b) := by
  simp only [setEntry_eq_ok_iff, exists_or, exists_and_left]
  refine or_congr (and_congr_right fun _ => ?_) (and_congr_right fun _ => ?_)
  · constructor
    · rintro ⟨_, naming, hnaming, rfl⟩
      exact ⟨naming, hnaming⟩
    · rintro ⟨naming, hnaming⟩
      exact ⟨_, naming, hnaming, rfl⟩
  · constructor
    · rintro ⟨_, b, hb, rfl⟩
      exact ⟨b, hb⟩
    · rintro ⟨b, hb⟩
      exact ⟨_, b, hb, rfl⟩

end Config

/-- A document is typed exactly when it has sections only, which can be read. -/
theorem Document.isTyped_iff {entries : DocumentEntries} :
    IsTyped entries ↔
      (∀ entry ∈ entries, entry.1 = "validation" ∨ entry.1 = "naming") ∧
      (∀ inner, ("validation", .table inner) ∈ entries →
        ∃ b, requirementOfValue (.table inner) = .ok b) ∧
      ∀ inner, ("naming", .table inner) ∈ entries →
        ∃ naming, Naming.ofValue (.table inner) = .ok naming := by
  simp only [exists_requirementOfValue_ok_iff, Naming.exists_ofValue_ok_iff]
  constructor
  · rintro ⟨htables, hvalidation, hnaming⟩
    refine ⟨htables, ?_, ?_⟩
    · rintro inner hinner ⟨key, value⟩ hentry
      obtain ⟨rfl, b, rfl⟩ := hvalidation key value ⟨inner, hinner, hentry⟩
      exact ⟨b, rfl⟩
    · rintro inner hinner ⟨key, value⟩ hentry
      obtain ⟨⟨role, rfl⟩, suffix, rfl⟩ := hnaming key value ⟨inner, hinner, hentry⟩
      exact ⟨role, suffix, rfl⟩
  · rintro ⟨htables, hvalidation, hnaming⟩
    refine ⟨htables, ?_, ?_⟩
    · rintro key value ⟨inner, hinner, hentry⟩
      obtain ⟨b, heq⟩ := hvalidation inner hinner _ hentry
      cases heq
      exact ⟨rfl, b, rfl⟩
    · rintro key value ⟨inner, hinner, hentry⟩
      obtain ⟨role, suffix, heq⟩ := hnaming inner hinner _ hentry
      cases heq
      exact ⟨⟨role, rfl⟩, suffix, rfl⟩

namespace Config

variable {config : Config} {entries : DocumentEntries}

/-- A document with sections describes a configuration exactly when it says nothing else. -/
theorem exists_ofEntries_ok_iff (hsections : HasSections entries) :
    (∃ config, ofEntries entries = .ok config) ↔ IsTyped entries := by
  rw [ofEntries, isTyped_iff]
  refine Iff.trans (Except.exists_foldlM_ok_iff fun entry config => exists_setEntry_ok_iff) ?_
  constructor
  · intro h
    refine ⟨fun entry hentry => ?_, fun inner hinner => ?_, fun inner hinner => ?_⟩
    · exact (h entry hentry).elim (fun hnaming => .inr hnaming.1)
        fun hvalidation => .inl hvalidation.1
    · simpa using h _ hinner
    · simpa using h _ hinner
  · rintro ⟨htables, hvalidation, hnaming⟩ ⟨table, value⟩ hentry
    obtain ⟨inner, rfl⟩ := hsections _ hentry (htables _ hentry)
    rcases htables _ hentry with rfl | rfl
    · exact .inr ⟨rfl, hvalidation inner hentry⟩
    · exact .inl ⟨rfl, hnaming inner hentry⟩

/-- Both sections are in the configuration. -/
theorem sections_of_ofEntries (hkeyed : HasDistinctKeys entries)
    (h : ofEntries entries = .ok config) :
    ∀ entry ∈ entries,
      (entry.1 = "naming" → Naming.ofValue entry.2 = .ok config.naming) ∧
      (entry.1 = "validation" → requirementOfValue entry.2 = .ok config.requireEntityId) := by
  refine Except.foldlM_reflects (S := fun entry other => entry.1 ≠ other.1)
    (R := fun entry config =>
      (entry.1 = "naming" → Naming.ofValue entry.2 = .ok config.naming) ∧
      (entry.1 = "validation" → requirementOfValue entry.2 = .ok config.requireEntityId))
    ?_ ?_ (List.pairwise_map.1 hkeyed.nodup) h
  · intro entry config next hstep
    rcases setEntry_eq_ok_iff.1 hstep with ⟨hkey, naming, hnaming, rfl⟩ | ⟨hkey, b, hb, rfl⟩
    · exact ⟨fun _ => hnaming, fun hother => by simp [hkey] at hother⟩
    · exact ⟨fun hother => by simp [hkey] at hother, fun _ => hb⟩
  · intro entry other config next hne hkept hstep
    rcases setEntry_eq_ok_iff.1 hstep with ⟨hkey, naming, hnaming, rfl⟩ | ⟨hkey, b, hb, rfl⟩
    · exact ⟨fun hsame => absurd (hsame.trans hkey.symm) hne, hkept.2⟩
    · exact ⟨hkept.1, fun hsame => absurd (hsame.trans hkey.symm) hne⟩

/-- A configuration follows the document that describes it. -/
theorem follows_of_ofEntries (hkeyed : HasDistinctKeys entries) (hsections : HasSections entries)
    (h : ofEntries entries = .ok config) : config.Follows entries := by
  have hread := sections_of_ofEntries hkeyed h
  constructor
  · rintro b ⟨inner, hinner, hentry⟩
    exact requirement_of_requirementOfValue (hkeyed.tables _ _ hinner) ((hread _ hinner).2 rfl)
      hentry
  · intro hnone
    by_cases hpresent : ∃ inner, ("validation", .table inner) ∈ entries
    · obtain ⟨inner, hinner⟩ := hpresent
      exact requirement_of_requirementOfValue_of_not_mem ((hread _ hinner).2 rfl)
        fun value hentry => hnone value ⟨inner, hinner, hentry⟩
    · refine Except.foldlM_keeps
        (P := fun config => config.requireEntityId = ({} : Config).requireEntityId) ?_ rfl h
      rintro ⟨table, value⟩ hentry config next hkept hstep
      rcases setEntry_eq_ok_iff.1 hstep with ⟨-, naming, -, rfl⟩ | ⟨rfl, -⟩
      · exact hkept
      · obtain ⟨inner, rfl⟩ := hsections _ hentry (.inl rfl)
        exact absurd ⟨inner, hentry⟩ hpresent
  · rintro role suffix ⟨inner, hinner, hentry⟩
    exact Naming.suffix_of_ofValue (hkeyed.tables _ _ hinner) ((hread _ hinner).1 rfl) hentry
  · intro role hnone
    by_cases hpresent : ∃ inner, ("naming", .table inner) ∈ entries
    · obtain ⟨inner, hinner⟩ := hpresent
      exact Naming.suffix_of_ofValue_of_not_mem ((hread _ hinner).1 rfl)
        fun value hentry => hnone value ⟨inner, hinner, hentry⟩
    · refine Except.foldlM_keeps
        (P := fun config => config.naming.suffix role = ({} : Config).naming.suffix role) ?_ rfl h
      rintro ⟨table, value⟩ hentry config next hkept hstep
      rcases setEntry_eq_ok_iff.1 hstep with ⟨rfl, -⟩ | ⟨-, b, -, rfl⟩
      · obtain ⟨inner, rfl⟩ := hsections _ hentry (.inr rfl)
        exact absurd ⟨inner, hentry⟩ hpresent
      · exact hkept

/-- A suffix that is no fragment was given by the document, for no default is like that. -/
theorem Follows.gives_of_not_isFragment (h : config.Follows entries) (htyped : IsTyped entries)
    {role : SuffixRole} (hunfit : ¬ IsFragment (config.naming.suffix role)) :
    GivesSuffix entries role (config.naming.suffix role) := by
  by_cases hgiven : ∃ value, Says entries "naming" role.key value
  · obtain ⟨value, hsays⟩ := hgiven
    obtain ⟨-, suffix, rfl⟩ := htyped.naming _ _ hsays
    rw [h.suffix role suffix hsays]
    exact hsays
  · refine absurd ?_ hunfit
    rw [h.suffix_default role fun value hsays => hgiven ⟨value, hsays⟩]
    cases role <;> decide

theorem Follows.isFragment_iff (h : config.Follows entries) (htyped : IsTyped entries)
    {role : SuffixRole} :
    IsFragment (config.naming.suffix role) ↔
      ∀ suffix, GivesSuffix entries role suffix → IsFragment suffix := by
  constructor
  · intro hfragment suffix hgives
    exact h.suffix role suffix hgives ▸ hfragment
  · intro hall
    by_contra hunfit
    exact hunfit (hall _ (h.gives_of_not_isFragment htyped hunfit))

/-- The first fault of a configuration is that of the first unfit suffix of its document. -/
theorem Follows.exists_firstUnfit (h : config.Follows entries) (htyped : IsTyped entries)
    {fault : SuffixFault} (hfault : config.naming.fault? = some fault) :
    ∃ role suffix, FirstUnfit entries role suffix ∧ fault = .ofSuffix role suffix := by
  obtain ⟨before, role, after, hall, hbefore, hunfit, rfl⟩ := Naming.fault?_eq_some_iff.1 hfault
  exact ⟨role, _, ⟨h.gives_of_not_isFragment htyped hunfit, hunfit, before, after, hall,
    fun earlier hearlier => (h.isFragment_iff htyped).1 (hbefore earlier hearlier)⟩, rfl⟩

/-! ### The text -/

variable {reader : DocumentReader} {text : String}

/-- A text gives what its document describes, if that has no fault. -/
theorem parseWith_eq_ok_iff (hread : reader.read? text = some entries) :
    parseWith reader text = .ok config ↔
      ofEntries entries = .ok config ∧ config.naming.fault? = none := by
  rw [parseWith, hread]
  dsimp only
  cases ofEntries entries with
  | error mistake => simp
  | ok other =>
    simp only [validate, Except.ok.injEq]
    split
    · next fault hfault =>
      simp only [reduceCtorEq, false_iff, not_and]
      rintro rfl
      simp [hfault]
    · next hfault =>
      simp only [Except.ok.injEq]
      exact ⟨fun h => ⟨h, h ▸ hfault⟩, And.left⟩

/-- The fault of what a document describes is reported. -/
theorem parseWith_eq_invalid (hread : reader.read? text = some entries)
    (hconfig : ofEntries entries = .ok config) {fault : SuffixFault}
    (hfault : config.naming.fault? = some fault) :
    parseWith reader text = .error (.invalid fault) := by
  simp only [parseWith, hread, hconfig, validate, hfault]

/-- What a document that describes nothing is reported for has nothing to do with suffixes. -/
theorem exists_isParse (hread : reader.read? text = some entries)
    (hnone : ¬ ∃ config, ofEntries entries = .ok config) :
    ∃ error, parseWith reader text = .error error ∧ error.IsParse := by
  rw [parseWith, hread]
  dsimp only
  cases hentries : ofEntries entries with
  | ok config => exact absurd ⟨config, hentries⟩ hnone
  | error mistake =>
    cases reader.isWhole text with
    | true => exact ⟨_, rfl, .inr ⟨mistake, rfl⟩⟩
    | false => exact ⟨_, rfl, .inl rfl⟩

/-- A text that is read as a document, in which the sections of a configuration are tables, gives a
configuration exactly when the document says nothing but what a configuration may say, in values of
the right types, and all suffixes in it are fragments. The configuration follows the document. A
document that says anything else is reported as such, whatever its suffixes are, and of suffixes
that are no fragments the first is reported. The reader may be any that keeps keys apart. -/
theorem loads_of_read? (hkeys : reader.KeepsKeysApart) (hread : reader.read? text = some entries)
    (hsections : HasSections entries) : Loads reader text entries := by
  have hdescribes := exists_ofEntries_ok_iff hsections
  have hfollows {config : Config} (hconfig : ofEntries entries = .ok config) :
      config.Follows entries :=
    follows_of_ofEntries (hkeys text entries hread) hsections hconfig
  constructor
  · simp only [parseWith_eq_ok_iff hread, Naming.fault?_eq_none_iff]
    constructor
    · rintro ⟨config, hconfig, hfit⟩
      have htyped := hdescribes.1 ⟨config, hconfig⟩
      exact ⟨htyped, fun role => ((hfollows hconfig).isFragment_iff htyped).1 (hfit role)⟩
    · rintro ⟨htyped, hfit⟩
      obtain ⟨config, hconfig⟩ := hdescribes.2 htyped
      exact ⟨config, hconfig,
        fun role => ((hfollows hconfig).isFragment_iff htyped).2 (hfit role)⟩
  · intro config hconfig
    exact hfollows ((parseWith_eq_ok_iff hread).1 hconfig).1
  · intro hmistyped
    exact exists_isParse hread (mt hdescribes.1 hmistyped)
  · rintro htyped ⟨role, suffix, hgives, hunfit⟩
    obtain ⟨config, hconfig⟩ := hdescribes.2 htyped
    cases hfault : config.naming.fault? with
    | none =>
      have hfragment := Naming.fault?_eq_none_iff.1 hfault role
      exact absurd (((hfollows hconfig).isFragment_iff htyped).1 hfragment suffix hgives) hunfit
    | some fault =>
      obtain ⟨role, suffix, hfirst, rfl⟩ := (hfollows hconfig).exists_firstUnfit htyped hfault
      exact ⟨role, suffix, hfirst, parseWith_eq_invalid hread hconfig hfault⟩

end Config

/-! ### The reader of TOML -/

theorem mem_inKeyOrder {entries : DocumentEntries}
    {entry : String × DocumentValue} : entry ∈ inKeyOrder entries ↔ entry ∈ entries :=
  (List.mergeSort_perm entries _).mem_iff

/-- Keys that are distinct are so in any order. -/
theorem nodup_inKeyOrder {entries : DocumentEntries}
    (h : (entries.map (·.1)).Nodup) : ((inKeyOrder entries).map (·.1)).Nodup :=
  (((List.mergeSort_perm entries _).map Prod.fst).nodup_iff).2 h

namespace Toml.Value

theorem entriesHandedOver_eq_map (entries : List (String × Value)) :
    entriesHandedOver entries = entries.map fun entry => (entry.1, entry.2.handedOver) := by
  induction entries with
  | nil => rfl
  | cons entry rest ih => rw [entriesHandedOver, ih, List.map_cons]

/-- The keys of a table are handed over as they are. -/
theorem map_fst_entriesHandedOver (entries : List (String × Value)) :
    (entriesHandedOver entries).map (·.1) = entries.map (·.1) := by
  rw [entriesHandedOver_eq_map, List.map_map]
  rfl

/-- A table that is handed over has distinct keys. -/
theorem WellKeyed.nodup_handedOver {value : Value} (h : value.WellKeyed)
    {inner : DocumentEntries} (hinner : value.handedOver = .table inner) :
    (inner.map (·.1)).Nodup := by
  cases h with
  | scalar hscalar =>
    cases value with
    | datetime text =>
      cases hinner
      exact List.nodup_singleton _
    | array | table => cases hscalar
    | _ => cases hinner
  | array => cases hinner
  | table hnodup =>
    cases hinner
    apply nodup_inKeyOrder
    rwa [map_fst_entriesHandedOver]

end Toml.Value

theorem tomlReader_keepsKeysApart : tomlReader.KeepsKeysApart := by
  intro text entries hread
  obtain ⟨written, hwritten, rfl⟩ := Option.map_eq_some_iff.1 hread
  have hkeyed := Toml.Document.wellKeyed_of_read? hwritten
  constructor
  · apply nodup_inKeyOrder
    rw [Toml.Value.map_fst_entriesHandedOver]
    exact hkeyed.nodup
  · intro key inner hinner
    rw [mem_inKeyOrder, Toml.Value.entriesHandedOver_eq_map] at hinner
    obtain ⟨entry, hentry, heq⟩ := List.mem_map.1 hinner
    exact (hkeyed.values entry hentry).nodup_handedOver (congrArg Prod.snd heq)

namespace Config

/-- A document with a suffix of its own for tables, and without identities of entities. -/
def rowSettings : String :=
  "naming.table_suffix = \"Row\"\n\n[validation]\nrequire_entity_id = false\n"

/-- What that document says. -/
def rowEntries : DocumentEntries :=
  [("naming", .table [("table_suffix", .string "Row")]),
    ("validation", .table [("require_entity_id", .boolean false)])]

theorem loads_of_read?_rowSettings :
    ∃ config, parse rowSettings = .ok config ∧ config.requireEntityId = false ∧
      config.naming.suffix .table = "Row" ∧ config.naming.suffix .draft = "Draft" := by
  have hwritten : Toml.Document.read? rowSettings =
      some [("naming", .table [("table_suffix", .string "Row")]),
        ("validation", .table [("require_entity_id", .boolean false)])] := by
    simp only [rowSettings, Toml.Document.read?, String.reduceToList]
    rfl
  have hread : tomlReader.read? rowSettings = some rowEntries := by
    have hsorted : "naming" ≤ "validation" := by decide
    simp only [tomlReader, hwritten, Option.map_some, Toml.Value.entriesHandedOver,
      Toml.Value.handedOver, inKeyOrder, List.mergeSort_singleton]
    rw [List.mergeSort_of_pairwise (by simp [hsorted])]
    rfl
  have hloads := loads_of_read? tomlReader_keepsKeysApart hread
    (by simp [HasSections, rowEntries])
  have htyped : IsTyped rowEntries :=
    ⟨by simp [rowEntries], by simp [Says, rowEntries],
      by simpa [Says, rowEntries] using ⟨SuffixRole.table, rfl⟩⟩
  have hfit (role : SuffixRole) (suffix : String) (hgives : GivesSuffix rowEntries role suffix) :
      IsFragment suffix := by
    obtain ⟨-, rfl⟩ : role.key = "table_suffix" ∧ suffix = "Row" := by
      simpa [GivesSuffix, Says, rowEntries] using hgives
    decide
  obtain ⟨config, hconfig⟩ := hloads.ok_iff.2 ⟨htyped, hfit⟩
  have hfollows := hloads.follows config hconfig
  exact ⟨config, hconfig, hfollows.requirement false (by simp [Says, rowEntries]),
    hfollows.suffix .table "Row" (by simp [GivesSuffix, Says, SuffixRole.key, rowEntries]),
    hfollows.suffix_default .draft (by simp [Says, SuffixRole.key, rowEntries])⟩

end Config

end Metamodel
