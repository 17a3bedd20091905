import RecordFilter.Toml.Value

/-!
# Documents — the table that the statements of a document make

A document of tables with a header each and values of their own makes the table of these tables, in the
order in which they stand, if no name and no key is used twice (`ofStatements?_sections`).
-/

namespace RecordFilter
namespace Toml

open Document

variable {key name : Text} {v : Value} {E F : Entries} {current : List Text}
  {change : Option Item → Option Item} {done entries : List (Text × Value)}

/-! ## Entries -/

/-- A key that is not among the first entries is looked for behind them. -/
theorem alter?_append (h : key ∉ E.map (·.1)) :
    Entries.alter? key change (E ++ F) = (Entries.alter? key change F).map (E ++ ·) := by
  induction E with
  | nil => simp
  | cons entry E ih =>
      rcases entry with ⟨k, item⟩
      simp only [List.map_cons, List.mem_cons, not_or] at h
      rw [List.cons_append, Entries.alter?, if_neg (Ne.symm h.1), ih h.2, Option.map_map]
      rfl

theorem alter?_new (h : key ∉ E.map (·.1)) :
    Entries.alter? key change E = (change none).map fun item => E ++ [(key, item)] := by
  rw [← List.append_nil E, alter?_append h, Entries.alter?, Option.map_map]
  simp [Function.comp_def]

theorem alter?_last {item : Item} (h : key ∉ E.map (·.1)) :
    Entries.alter? key change (E ++ [(key, item)]) =
      (change (some item)).map fun item => E ++ [(key, item)] := by
  rw [alter?_append h, Entries.alter?, if_pos rfl, Option.map_map]
  rfl

/-- Values under their keys. -/
def valueItems (entries : List (Text × Value)) : Entries := entries.map fun (key, v) => (key, .value v)

theorem keys_valueItems (entries : List (Text × Value)) :
    (valueItems entries).map (·.1) = entries.map (·.1) := by
  rw [valueItems, List.map_map]
  rfl

theorem entriesToValues_eq_map (E : Entries) :
    entriesToValues E = E.map fun (key, item) => (key, item.toValue) := by
  induction E with
  | nil => rfl
  | cons entry E ih => rw [entriesToValues, ih, entryToValue]; rfl

theorem entriesToValues_valueItems (entries : List (Text × Value)) :
    entriesToValues (valueItems entries) = entries := by
  rw [entriesToValues_eq_map, valueItems, List.map_map]
  exact List.map_id' entries

/-! ## Sections -/

/-- A table by its name, with values of its own. -/
abbrev Section := Text × List (Text × Value)

/-- The statement that makes an entry. -/
def entryStatement (entry : Text × Value) : Statement := .entry ⟨[], entry.1⟩ entry.2

/-- The statements that make a section: its header, and its entries. -/
def statementsOf (x : Section) : List Statement := .table ⟨[], x.1⟩ :: x.2.map entryStatement

/-- What a section is while the document is read. -/
def itemOf (x : Section) : Text × Item := (x.1, .table .header (valueItems x.2))

theorem add?_table (h : name ∉ E.map (·.1)) :
    add? ⟨current, E⟩ (.table ⟨[], name⟩) = some ⟨[name], E ++ [itemOf (name, [])]⟩ := by
  rw [add?, Entries.within?, Entries.openTable?, alter?_new h]
  rfl

theorem add?_entry (hname : name ∉ E.map (·.1)) (hkey : key ∉ done.map (·.1)) :
    add? ⟨[name], E ++ [itemOf (name, done)]⟩ (.entry ⟨[], key⟩ v) =
      some ⟨[name], E ++ [itemOf (name, done ++ [(key, v)])]⟩ := by
  have hitems : key ∉ (valueItems done).map (·.1) := by
    rwa [keys_valueItems]
  rw [add?, Entries.within?, itemOf, alter?_last hname]
  simp only [Entries.within?, Entries.set?, alter?_new hitems, Option.map_some]
  simp [itemOf, valueItems]

/-- The entries of a section come to stand in it one after another. -/
theorem foldlM_entries (hname : name ∉ E.map (·.1)) (done : List (Text × Value))
    (hkeys : ((done ++ entries).map (·.1)).Nodup) :
    (entries.map entryStatement).foldlM add? ⟨[name], E ++ [itemOf (name, done)]⟩ =
      some ⟨[name], E ++ [itemOf (name, done ++ entries)]⟩ := by
  -- the entries in front are in the section already
  induction entries generalizing done with
  | nil => rw [List.append_nil]; rfl
  | cons entry entries ih =>
      rcases entry with ⟨key, v⟩
      have hkey : key ∉ done.map (·.1) := by
        intro hmem
        rw [List.map_append, List.map_cons] at hkeys
        exact (List.nodup_append.1 hkeys).2.2 key hmem key List.mem_cons_self rfl
      have hrest := ih (done ++ [(key, v)]) (by rwa [List.append_assoc])
      rw [List.map_cons, List.foldlM_cons, entryStatement, add?_entry hname hkey, Option.bind_eq_bind,
        Option.bind_some, hrest, List.append_assoc]
      rfl

theorem foldlM_statementsOf {x : Section} (hname : x.1 ∉ E.map (·.1)) (hkeys : (x.2.map (·.1)).Nodup) :
    (statementsOf x).foldlM add? ⟨current, E⟩ = some ⟨[x.1], E ++ [itemOf x]⟩ := by
  rw [statementsOf, List.foldlM_cons, add?_table hname, Option.bind_eq_bind, Option.bind_some]
  exact foldlM_entries hname [] hkeys

/-- So do the sections of a document. -/
theorem foldlM_sections (current : List Text) {sections : List Section}
    (hnames : (E.map (·.1) ++ sections.map (·.1)).Nodup)
    (hkeys : ∀ x ∈ sections, (x.2.map (·.1)).Nodup) :
    ∃ current', (sections.flatMap statementsOf).foldlM add? ⟨current, E⟩ =
      some ⟨current', E ++ sections.map itemOf⟩ := by
  -- a header does not ask which table was the current one
  induction sections generalizing current E with
  | nil => exact ⟨current, by simp⟩
  | cons x sections ih =>
      have hname : x.1 ∉ E.map (·.1) := by
        intro hmem
        rw [List.map_cons] at hnames
        exact (List.nodup_append.1 hnames).2.2 x.1 hmem x.1 List.mem_cons_self rfl
      have hnames' : ((E ++ [itemOf x]).map (·.1) ++ sections.map (·.1)).Nodup := by
        simpa [itemOf] using hnames
      rcases ih [x.1] hnames' (fun y hy => hkeys y (List.mem_cons_of_mem _ hy)) with
        ⟨current', hrest⟩
      refine ⟨current', ?_⟩
      rw [List.flatMap_cons, List.foldlM_append, foldlM_statementsOf hname (hkeys x List.mem_cons_self),
        Option.bind_eq_bind, Option.bind_some, hrest, List.append_assoc]
      rfl

/-- A document of sections makes the table of their tables. -/
theorem ofStatements?_sections {sections : List Section} (hnames : (sections.map (·.1)).Nodup)
    (hkeys : ∀ x ∈ sections, (x.2.map (·.1)).Nodup) :
    ofStatements? (sections.flatMap statementsOf) =
      some (.table (sections.map fun (name, entries) => (name, .table entries))) := by
  rcases foldlM_sections [] (E := []) hnames hkeys with ⟨current, hfold⟩
  rw [ofStatements?, Document.empty, hfold, Option.map_some, List.nil_append, entriesToValues_eq_map,
    List.map_map]
  congr 2
  refine List.map_congr_left fun x _ => ?_
  simp only [Function.comp_apply, itemOf, Item.toValue, entriesToValues_valueItems]

end Toml
end RecordFilter
