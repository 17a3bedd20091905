import RecordFilter.Proofs.Toml.Documents
import RecordFilter.Proofs.Toml.Lines
import RecordFilter.Settings.Overlay
import RecordFilter.Settings.Reader
import RecordFilter.Settings.Writer

/-!
# RoundTrip — settings are read from their text

The text of settings says the statements of four tables (`says_text`), these make a document, and the
document holds the settings, since an option that is left out is unset by default (`ofValue?_sections`).
So settings are read from their text exactly if their schema has no problem (`read_text_iff`), as it never
has in settings that were read, or are the default ones, whatever the environment lays over them
(`read_text_of_reachable`).
-/

namespace RecordFilter

open Toml

variable {key : Text} {o : Option Text}

/-! ## Entries -/

/-- The entry of an option that is set. -/
def optionEntry (key : Text) : Option Text → List (Text × Value)
  | none => []
  | some s => [(key, .string s)]

/-- The entries of the stream's table. -/
def StreamSettings.entries (s : StreamSettings) : List (Text × Value) :=
  optionEntry "name".toList s.name
    ++ optionEntry "source_system".toList s.sourceSystem
    ++ optionEntry "target_system".toList s.targetSystem
    ++ optionEntry "bootstrap_servers".toList s.bootstrapServers
    ++ optionEntry "server_uri".toList s.serverUri
    ++ optionEntry "filter_logic".toList s.filterLogic
    ++ [("verbose".toList, .boolean s.verbose)]

/-- The entries of the schema's table. -/
def Schema.entries (s : Schema) : List (Text × Value) :=
  [("allowed".toList, .array (s.allowed.map .string)), ("numeric".toList, .string s.numeric)]

/-- The entries of the enrichment's table. -/
def Enrichment.entries (e : Enrichment) : List (Text × Value) :=
  [("enabled".toList, .boolean e.enabled), ("datastream_key".toList, .string e.datastreamKey),
    ("datastream_attributes".toList, .array (e.datastreamAttributes.map .string)),
    ("meta_key".toList, .string e.metaKey),
    ("meta_attributes".toList, .array (e.metaAttributes.map .string)),
    ("time_source".toList, .string e.timeSource), ("time_target".toList, .string e.timeTarget)]

/-- The tables of the settings. -/
def Settings.sections (s : Settings) : List Toml.Section :=
  [("stream".toList, s.stream.entries), ("fields".toList, s.fields.entries),
    ("augment".toList, s.enrichment.entries), ("logging".toList, [("level".toList, .string s.logLevel)])]

/-! ## What the text says -/

theorem Toml.Says.append_entries {t u : Text} {a b : List (Text × Value)}
    (ht : Says t (a.map entryStatement)) (hu : Says u (b.map entryStatement)) :
    Says (t ++ u) ((a ++ b).map entryStatement) := by
  rw [List.map_append]
  exact ht.append hu

theorem says_optionLine (key : Text) (hkey : IsBareKey key) (o : Option Text) :
    Says (optionLine key o) ((optionEntry key o).map entryStatement) := by
  cases o with
  | none => exact says_nil
  | some s => exact says_entryLine hkey (denotes_stringText s)

theorem StreamSettings.says_lines (s : StreamSettings) : Says s.lines (s.entries.map entryStatement) := by
  have hverbose : Says (entryLine "verbose".toList (booleanText s.verbose))
      ([("verbose".toList, Value.boolean s.verbose)].map entryStatement) :=
    says_entryLine (by decide) (denotes_booleanText s.verbose)
  exact (says_optionLine "name".toList (by decide) s.name)
    |>.append_entries (says_optionLine "source_system".toList (by decide) s.sourceSystem)
    |>.append_entries (says_optionLine "target_system".toList (by decide) s.targetSystem)
    |>.append_entries (says_optionLine "bootstrap_servers".toList (by decide) s.bootstrapServers)
    |>.append_entries (says_optionLine "server_uri".toList (by decide) s.serverUri)
    |>.append_entries (says_optionLine "filter_logic".toList (by decide) s.filterLogic)
    |>.append_entries hverbose

theorem Schema.says_lines (s : Schema) : Says s.lines (s.entries.map entryStatement) :=
  (says_entryLine (by decide) (denotes_stringsText s.allowed)).append
    (says_entryLine (by decide) (denotes_stringText s.numeric))

theorem Enrichment.says_lines (e : Enrichment) : Says e.lines (e.entries.map entryStatement) :=
  (says_entryLine (by decide) (denotes_booleanText e.enabled))
    |>.append (says_entryLine (by decide) (denotes_stringText e.datastreamKey))
    |>.append (says_entryLine (by decide) (denotes_stringsText e.datastreamAttributes))
    |>.append (says_entryLine (by decide) (denotes_stringText e.metaKey))
    |>.append (says_entryLine (by decide) (denotes_stringsText e.metaAttributes))
    |>.append (says_entryLine (by decide) (denotes_stringText e.timeSource))
    |>.append (says_entryLine (by decide) (denotes_stringText e.timeTarget))

namespace Settings

theorem says_text (s : Settings) : Says s.text (s.sections.flatMap statementsOf) := by
  have hlevel : Says (entryLine "level".toList (stringText s.logLevel))
      ([("level".toList, Value.string s.logLevel)].map entryStatement) :=
    says_entryLine (by decide) (denotes_stringText s.logLevel)
  -- an empty line stands before every header but the first
  have hnext : ∀ name, IsBareKey name → Says ('\n' :: headerLine name) [.table ⟨[], name⟩] :=
    fun name hname => says_break.append (says_headerLine hname)
  have hsays := (says_headerLine (by decide : IsBareKey "stream".toList))
    |>.append s.stream.says_lines
    |>.append (hnext "fields".toList (by decide))
    |>.append s.fields.says_lines
    |>.append (hnext "augment".toList (by decide))
    |>.append s.enrichment.says_lines
    |>.append (hnext "logging".toList (by decide))
    |>.append hlevel
  rw [text]
  simpa [sections, statementsOf] using hsays

/-! ## What the document holds -/

theorem keys_optionEntry (key : Text) (o : Option Text) :
    List.Sublist ((optionEntry key o).map (·.1)) [key] := by
  cases o with
  | none => exact List.nil_sublist [key]
  | some s => exact List.Sublist.refl [key]

/-- Of the keys of the stream's table those of unset options are missing. -/
theorem nodup_streamEntries (s : StreamSettings) : (s.entries.map (·.1)).Nodup := by
  have hall : (["name".toList] ++ ["source_system".toList] ++ ["target_system".toList] ++
      ["bootstrap_servers".toList] ++ ["server_uri".toList] ++ ["filter_logic".toList] ++
      ["verbose".toList]).Nodup := by decide
  refine List.Nodup.sublist ?_ hall
  simp only [StreamSettings.entries, List.map_append]
  exact (keys_optionEntry _ s.name)
    |>.append (keys_optionEntry _ s.sourceSystem)
    |>.append (keys_optionEntry _ s.targetSystem)
    |>.append (keys_optionEntry _ s.bootstrapServers)
    |>.append (keys_optionEntry _ s.serverUri)
    |>.append (keys_optionEntry _ s.filterLogic)
    |>.append (List.Sublist.refl _)

theorem read?_text (s : Settings) :
    Toml.read? s.text = some (.table (s.sections.map fun (name, entries) => (name, .table entries))) := by
  have hmark : dropByteOrderMark s.text = s.text := rfl
  have hnames : (s.sections.map (·.1)).Nodup := by
    change ["stream".toList, "fields".toList, "augment".toList, "logging".toList].Nodup
    decide
  have hkeys : ∀ x ∈ s.sections, (x.2.map (·.1)).Nodup := by
    intro x hx
    simp only [sections, List.mem_cons, List.not_mem_nil, or_false] at hx
    rcases hx with rfl | rfl | rfl | rfl
    · exact nodup_streamEntries s.stream
    · change ["allowed".toList, "numeric".toList].Nodup
      decide
    · change ["enabled".toList, "datastream_key".toList, "datastream_attributes".toList,
        "meta_key".toList, "meta_attributes".toList, "time_source".toList, "time_target".toList].Nodup
      decide
    · change ["level".toList].Nodup
      decide
  rw [Toml.read?, hmark, s.says_text.statements?_eq, Option.bind_some,
    ofStatements?_sections hnames hkeys]

/-! ## Groups of options -/

theorem valueOf?_append (key : Text) (a b : List (Text × Value)) :
    valueOf? key (a ++ b) = (valueOf? key a).or (valueOf? key b) := by
  induction a with
  | nil => rfl
  | cons entry a ih =>
      rcases entry with ⟨k, v⟩
      rw [List.cons_append, valueOf?, valueOf?]
      split
      case isTrue => rfl
      case isFalse => exact ih

theorem valueOf?_optionEntry (key key' : Text) (o : Option Text) :
    valueOf? key (optionEntry key' o) = if key' = key then o.map .string else none := by
  cases o with
  | none => rw [Option.map_none, ite_self]; rfl
  | some s => rfl

/-- An option that is left out where it is unset is what it was. -/
theorem get?_option {g : Group} {place : Nat} (h : g key place = o.map .string) :
    g.get? (fun v => (asText? v).map some) key place none = some o := by
  rw [Group.get?, h]
  cases o <;> rfl

theorem get?_of_eq {α : Type} {g : Group} {place : Nat} {v : Value} {convert : Value → Option α}
    {other : α} (h : g key place = some v) : g.get? convert key place other = convert v := by
  rw [Group.get?, h]

theorem asTexts?_strings (items : List Text) : asTexts? (.array (items.map .string)) = some items := by
  rw [asTexts?]
  induction items with
  | nil => rfl
  | cons s items ih => rw [List.map_cons, List.mapM_cons, ih]; rfl

theorem stream?_entries (s : StreamSettings) : stream? (.table s.entries) = some s := by
  let g : Group := fun key _ => valueOf? key s.entries
  have hoptions : g "name".toList 0 = s.name.map .string ∧
      g "source_system".toList 1 = s.sourceSystem.map .string ∧
      g "target_system".toList 2 = s.targetSystem.map .string ∧
      g "bootstrap_servers".toList 3 = s.bootstrapServers.map .string ∧
      g "server_uri".toList 4 = s.serverUri.map .string ∧
      g "filter_logic".toList 5 = s.filterLogic.map .string ∧
      g "verbose".toList 6 = some (.boolean s.verbose) := by
    refine ⟨?_, ?_, ?_, ?_, ?_, ?_, ?_⟩ <;>
      simp +decide [g, StreamSettings.entries, valueOf?_append, valueOf?_optionEntry, valueOf?]
  rcases hoptions with ⟨hname, hsource, htarget, hservers, huri, hlogic, hverbose⟩
  have hgroup : group? (.table s.entries) = some g := rfl
  simp only [stream?, hgroup, Option.bind_eq_bind, Option.bind_some, get?_option hname,
    get?_option hsource, get?_option htarget, get?_option hservers, get?_option huri,
    get?_option hlogic, get?_of_eq hverbose, asFlag?]

theorem fields?_entries (s : Schema) : fields? (.table s.entries) = some s := by
  let g : Group := fun key _ => valueOf? key s.entries
  have hgroup : group? (.table s.entries) = some g := rfl
  have hallowed : g "allowed".toList 0 = some (.array (s.allowed.map .string)) := rfl
  have hnumeric : g "numeric".toList 1 = some (.string s.numeric) := rfl
  simp only [fields?, hgroup, Option.bind_eq_bind, Option.bind_some, get?_of_eq hallowed,
    get?_of_eq hnumeric, asTexts?_strings, asText?]

theorem enrichment?_entries (e : Enrichment) : enrichment? (.table e.entries) = some e := by
  let g : Group := fun key _ => valueOf? key e.entries
  have hgroup : group? (.table e.entries) = some g := rfl
  have henabled : g "enabled".toList 0 = some (.boolean e.enabled) := rfl
  have hkey : g "datastream_key".toList 1 = some (.string e.datastreamKey) := rfl
  have hattributes : g "datastream_attributes".toList 2 =
      some (.array (e.datastreamAttributes.map .string)) := rfl
  have hmeta : g "meta_key".toList 3 = some (.string e.metaKey) := rfl
  have hmetas : g "meta_attributes".toList 4 = some (.array (e.metaAttributes.map .string)) := rfl
  have hsource : g "time_source".toList 5 = some (.string e.timeSource) := rfl
  have htarget : g "time_target".toList 6 = some (.string e.timeTarget) := rfl
  simp only [enrichment?, hgroup, Option.bind_eq_bind, Option.bind_some, get?_of_eq henabled,
    get?_of_eq hkey, get?_of_eq hattributes, get?_of_eq hmeta, get?_of_eq hmetas, get?_of_eq hsource,
    get?_of_eq htarget, asTexts?_strings, asText?, asFlag?]

/-- A document holds the settings whose text it was read from. -/
theorem ofValue?_sections (s : Settings) :
    ofValue? (.table (s.sections.map fun (name, entries) => (name, .table entries))) = some s := by
  let g : Group := fun key _ => valueOf? key (s.sections.map fun (name, entries) => (name, .table entries))
  have hgroup : group? (.table (s.sections.map fun (name, entries) => (name, .table entries))) = some g :=
    rfl
  have hstream : g "stream".toList 0 = some (.table s.stream.entries) := rfl
  have hfields : g "fields".toList 1 = some (.table s.fields.entries) := rfl
  have henrichment : g "augment".toList 2 = some (.table s.enrichment.entries) := rfl
  have hlogging : g "logging".toList 3 = some (.table [("level".toList, .string s.logLevel)]) := rfl
  have hlevel : logLevel? (.table [("level".toList, .string s.logLevel)]) = some s.logLevel := rfl
  simp only [ofValue?, hgroup, Option.bind_eq_bind, Option.bind_some, get?_of_eq hstream,
    get?_of_eq hfields, get?_of_eq henrichment, get?_of_eq hlogging, stream?_entries, fields?_entries,
    enrichment?_entries, hlevel]

/-- Settings are read from their text exactly if their schema has no problem. -/
theorem read_text_iff (s : Settings) : read s.text = .ok s ↔ s.fields.problem? = none := by
  rw [read, read?_text, Option.bind_some, ofValue?_sections]
  cases hproblem : s.fields.problem? with
  | none => simp [hproblem]
  | some e => simp [hproblem]

/-! ## Reachable settings -/

/-- `Reachable start s`: the settings `s` come from `start`, which are the default settings or were read
from a text, by laying any environments over them, one after another. -/
inductive Reachable : Settings → Settings → Prop where
  | default : Reachable default default
  | read {text : Text} {s : Settings} : read text = .ok s → Reachable s s
  | overlay {start s : Settings} (lookup? : Text → Option Text) :
      Reachable start s → Reachable start (overlay lookup? s)

theorem problem?_of_read {text : Text} {s : Settings} (h : read text = .ok s) :
    s.fields.problem? = none := by
  unfold read at h
  split at h
  case h_1 => cases h
  case h_2 settings _ =>
    split at h
    case h_1 => cases h
    case h_2 hproblem =>
      cases h
      exact hproblem

/-- An environment changes the stream's settings only. -/
theorem overlay_frame (lookup? : Text → Option Text) (s : Settings) :
    (overlay lookup? s).fields = s.fields ∧ (overlay lookup? s).enrichment = s.enrichment ∧
      (overlay lookup? s).logLevel = s.logLevel := ⟨rfl, rfl, rfl⟩

/-- Reachable settings have the schema, the enrichment and the log level that they started with, their
schema has no problem, and they are read back from their text whatever strings their options and lists
hold. -/
theorem read_text_of_reachable {start s : Settings} (h : Reachable start s) :
    s.fields.problem? = none ∧ s.fields = start.fields ∧ s.enrichment = start.enrichment ∧
      s.logLevel = start.logLevel ∧ read s.text = .ok s := by
  -- the invariant: nothing that an environment lays over settings bears on their schema
  have hframe : s.fields.problem? = none ∧ s.fields = start.fields ∧
      s.enrichment = start.enrichment ∧ s.logLevel = start.logLevel := by
    induction h with
    | default => exact ⟨by decide, rfl, rfl, rfl⟩
    | read hread => exact ⟨problem?_of_read hread, rfl, rfl, rfl⟩
    | @overlay start s lookup? _ ih =>
        rcases overlay_frame lookup? s with ⟨hfields, henrichment, hlevel⟩
        rw [hfields, henrichment, hlevel]
        exact ih
  rcases hframe with ⟨hproblem, hfields, henrichment, hlevel⟩
  exact ⟨hproblem, hfields, henrichment, hlevel, (read_text_iff s).2 hproblem⟩

/-- Quotes of both kinds, a backslash, a line feed and a control character over the default settings. -/
theorem read_text_of_environment :
    let uri := "'''\"\"\"\\\n\x01".toList
    let environment : Environment := [("SERVER_URI".toList, uri), ("VERBOSE".toList, " False".toList)]
    let s := overlay (fun key => Environment.get? key environment) default
    Reachable default s ∧ s.stream.serverUri = some uri ∧ s.stream.name = none ∧
      s.fields.problem? = none ∧ s.fields = default.fields ∧ s.enrichment = default.enrichment ∧
      s.logLevel = default.logLevel ∧ read s.text = .ok s := by
  intro uri environment s
  have hreachable : Reachable default s := .overlay _ .default
  exact ⟨hreachable, rfl, rfl, read_text_of_reachable hreachable⟩

end Settings
end RecordFilter
