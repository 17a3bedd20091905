import Mathlib.Data.List.Nodup
import Mathlib.Data.List.Perm.Basic
import Mathlib.Order.Lattice
import RecordFilter.FileTree.Place
import RecordFilter.Proofs.FileTree.Paths

/-!
# Trees — walks over directories in the order of their names

A walk goes over the entries of a directory as they stand and down into each directory on its way
(`depthFirst`).  It meets the record files that names lead to (`mem_depthFirst`), in whatever order the
entries stand (`depthFirst_inNameOrder_perm`); where they stand in the order of their names, the files
come in the order of the names that lead to them (`pairwise_depthFirst_inNameOrder`).  That order does
not depend on the one in which the entries were read (`Reordered.inNameOrder_eq`).
-/

namespace RecordFilter

open Text (bytes)
open FileTree.Path (IsName isRecordName)

namespace FileTree

/-! ## Sorting by a key -/

section Keys

variable {α β : Type} [LinearOrder β] {key : α → β} {le : α → α → Bool} {xs ys : List α}

theorem pairwise_mergeSort_key (hle : ∀ a b, le a b = true ↔ key a ≤ key b) (xs : List α) :
    (xs.mergeSort le).Pairwise fun a b => key a ≤ key b := by
  have htrans : ∀ a b c : α, le a b = true → le b c = true → le a c = true := by
    intro a b c hab hbc
    exact (hle a c).2 (le_trans ((hle a b).1 hab) ((hle b c).1 hbc))
  have htotal : ∀ a b : α, (le a b || le b a) = true := by
    intro a b
    rw [Bool.or_eq_true, hle, hle]
    exact le_total (key a) (key b)
  exact (List.pairwise_mergeSort htrans htotal xs).imp (hle _ _).1

/-- A list with increasing keys is what its reorderings are sorted to. -/
theorem mergeSort_key_eq (hle : ∀ a b, le a b = true ↔ key a ≤ key b) (hperm : xs.Perm ys)
    (hys : ys.Pairwise fun a b => key a < key b) : xs.mergeSort le = ys := by
  have hkeys : (ys.map key).Nodup := List.pairwise_map.2 (hys.imp fun hlt => hlt.ne)
  have hsorted : (xs.mergeSort le).Perm ys := (List.mergeSort_perm xs _).trans hperm
  refine List.Perm.eq_of_pairwise ?_ (pairwise_mergeSort_key hle xs) (hys.imp le_of_lt) hsorted
  intro a b ha hb hab hba
  exact List.inj_on_of_nodup_map hkeys (hsorted.mem_iff.1 ha) hb (le_antisymm hab hba)

end Keys

namespace Entry

variable {e other target : Entry} {entries others : List (Text × Entry)} {name : Text}
  {names : List Text}

/-- Induction over a tree: what holds of all entries of a directory holds of the directory. -/
@[elab_as_elim]
theorem induction {motive : Entry → Prop} (file : ∀ content, motive (.file content))
    (directory : ∀ entries, (∀ a ∈ entries, motive a.2) → motive (.directory entries)) (e : Entry) :
    motive e :=
  @Entry.rec motive (fun entries => ∀ a ∈ entries, motive a.2) (fun a => motive a.2) file directory
    (fun _ h => absurd h List.not_mem_nil)
    (fun _ _ hhead htail => List.forall_mem_cons.2 ⟨hhead, htail⟩) (fun _ _ h => h) e

/-! ## Trees -/

/-- Each directory gives its entries names, no two of them the same. -/
inductive WellFormed : Entry → Prop where
  | file (content : Text) : WellFormed (.file content)
  | directory {entries : List (Text × Entry)} : (∀ a ∈ entries, IsName a.1) →
      (entries.map (·.1)).Nodup → (∀ a ∈ entries, WellFormed a.2) → WellFormed (.directory entries)

/-- The same tree, with the entries of its directories in other orders. -/
inductive Reordered : Entry → Entry → Prop where
  | refl (e : Entry) : Reordered e e
  | permuted {entries others : List (Text × Entry)} :
      entries.Perm others → Reordered (.directory entries) (.directory others)
  | within {e other : Entry} (front : List (Text × Entry)) (name : Text)
      (rest : List (Text × Entry)) : Reordered e other →
      Reordered (.directory (front ++ (name, e) :: rest))
        (.directory (front ++ (name, other) :: rest))
  | trans {e other third : Entry} : Reordered e other → Reordered other third → Reordered e third

/-- Names lead from an entry down to another. -/
inductive Leads : Entry → List Text → Entry → Prop where
  | here (e : Entry) : Leads e [] e
  | down {entries : List (Text × Entry)} {name : Text} {e target : Entry} {names : List Text} :
      (name, e) ∈ entries → Leads e names target →
      Leads (.directory entries) (name :: names) target

theorem Leads.isName (he : e.WellFormed) (h : Leads e names target) :
    ∀ name ∈ names, IsName name := by
  induction h with
  | here e => exact fun name hname => absurd hname List.not_mem_nil
  | down hmem _ ih =>
      cases he with
      | directory hnames _ hentries =>
          exact List.forall_mem_cons.2 ⟨hnames _ hmem, ih (hentries _ hmem)⟩

/-- In a directory there is one entry of a name. -/
theorem eq_of_mem_of_nodup (h : (entries.map (·.1)).Nodup) (he : (name, e) ∈ entries)
    (hother : (name, other) ∈ entries) : e = other :=
  congrArg Prod.snd (List.inj_on_of_nodup_map h he hother rfl)

theorem Leads.unique (he : e.WellFormed) (h : Leads e names target) (hother : Leads e names other) :
    target = other := by
  induction h with
  | here e =>
      cases hother
      rfl
  | down hmem _ ih =>
      cases he with
      | directory _ hnodup hentries =>
          cases hother with
          | down hothermem hrest =>
              rcases eq_of_mem_of_nodup hnodup hmem hothermem with rfl
              exact ih (hentries _ hmem) hrest

/-! ## Walks -/

mutual

/-- The record files below an entry, each by the names that lead to it, as a walk meets them that goes
over the entries of a directory as they stand, and down into each directory among them. -/
def depthFirst : Entry → List (List Text)
  | .file _ => []
  | .directory entries => depthFirstAll entries
termination_by structural e => e

/-- What a walk meets at some entries of a directory. -/
def depthFirstAll : List (Text × Entry) → List (List Text)
  | [] => []
  | e :: rest => depthFirstOne e ++ depthFirstAll rest
termination_by structural es => es

/-- What a walk meets at one entry of a directory. -/
def depthFirstOne : Text × Entry → List (List Text)
  | (name, e) =>
      if e.isDirectory then (depthFirst e).map (name :: ·)
      else if isRecordName name then [[name]] else []
termination_by structural e => e

end

theorem depthFirst_directory (entries : List (Text × Entry)) :
    depthFirst (.directory entries) = entries.flatMap depthFirstOne := by
  rw [depthFirst]
  induction entries with
  | nil => rfl
  | cons a rest ih => rw [depthFirstAll, ih, List.flatMap_cons]

theorem mem_depthFirstOne_file {content : Text} :
    names ∈ depthFirstOne (name, .file content) ↔ names = [name] ∧ isRecordName name = true := by
  rw [depthFirstOne, isDirectory, if_neg Bool.false_ne_true]
  cases isRecordName name with
  | true => simp
  | false => simp

theorem mem_depthFirstOne_directory : names ∈ depthFirstOne (name, .directory entries) ↔
    ∃ rest ∈ depthFirst (.directory entries), names = name :: rest := by
  rw [depthFirstOne, isDirectory, if_pos rfl, List.mem_map]
  simp only [eq_comm]

theorem exists_of_mem_depthFirstOne (h : names ∈ depthFirstOne (name, e)) :
    ∃ rest, names = name :: rest := by
  cases e with
  | file content => exact ⟨[], (mem_depthFirstOne_file.1 h).1⟩
  | directory entries =>
      rcases mem_depthFirstOne_directory.1 h with ⟨rest, -, rfl⟩
      exact ⟨rest, rfl⟩

/-- A walk meets the files that names lead to, the last of which is that of a record file. -/
theorem mem_depthFirst : names ∈ depthFirst e ↔
    ∃ content last, Leads e names (.file content) ∧ names.getLast? = some last ∧
      isRecordName last = true := by
  induction e using Entry.induction generalizing names with
  | file content =>
      constructor
      · intro h
        exact absurd h List.not_mem_nil
      · rintro ⟨_, last, hleads, hlast, -⟩
        cases hleads
        cases hlast
  | directory entries ih =>
      rw [depthFirst_directory, List.mem_flatMap]
      constructor
      · rintro ⟨⟨name, e⟩, hmem, hone⟩
        cases e with
        | file content =>
            rcases mem_depthFirstOne_file.1 hone with ⟨rfl, hrecord⟩
            exact ⟨content, name, .down hmem (.here _), rfl, hrecord⟩
        | directory inner =>
            rcases mem_depthFirstOne_directory.1 hone with ⟨rest, hrest, rfl⟩
            rcases (ih _ hmem).1 hrest with ⟨content, last, hleads, hlast, hrecord⟩
            refine ⟨content, last, .down hmem hleads, ?_, hrecord⟩
            rw [List.getLast?_cons, hlast]
            rfl
      · rintro ⟨content, last, hleads, hlast, hrecord⟩
        cases hleads with
        | @down _ name e _ rest hmem hrest =>
            refine ⟨(name, e), hmem, ?_⟩
            cases e with
            | file content =>
                cases hrest
                have hname : name = last := Option.some.inj hlast
                exact mem_depthFirstOne_file.2 ⟨rfl, hname ▸ hrecord⟩
            | directory inner =>
                refine mem_depthFirstOne_directory.2 ⟨rest, (ih _ hmem).2 ?_, rfl⟩
                -- a directory is no file, so at least one more name follows
                cases hrest with
                | down hinner hbelow => exact ⟨content, last, .down hinner hbelow, hlast, hrecord⟩

/-! ## The order of names -/

/-- Entries in the order of the bytes of their names. -/
def sortByName (entries : List (Text × Entry)) : List (Text × Entry) :=
  entries.mergeSort fun a b => decide (bytes a.1 ≤ bytes b.1)

mutual

/-- A tree with the entries of each directory in the order of the bytes of their names. -/
def inNameOrder : Entry → Entry
  | .file content => .file content
  | .directory entries => .directory (sortByName (inNameOrderAll entries))
termination_by structural e => e

/-- Entries with what is below them in the order of names. -/
def inNameOrderAll : List (Text × Entry) → List (Text × Entry)
  | [] => []
  | e :: rest => inNameOrderOne e :: inNameOrderAll rest
termination_by structural es => es

/-- An entry with what is below it in the order of names. -/
def inNameOrderOne : Text × Entry → Text × Entry
  | (name, e) => (name, inNameOrder e)
termination_by structural e => e

end

theorem inNameOrder_directory (entries : List (Text × Entry)) :
    inNameOrder (.directory entries) = .directory (sortByName (entries.map inNameOrderOne)) := by
  have hall : inNameOrderAll entries = entries.map inNameOrderOne := by
    induction entries with
    | nil => rfl
    | cons a rest ih => rw [inNameOrderAll, ih, List.map_cons]
  rw [inNameOrder, hall]

theorem sortByName_perm (entries : List (Text × Entry)) : (sortByName entries).Perm entries :=
  List.mergeSort_perm _ _

theorem pairwise_lt_sortByName (hnodup : (entries.map (·.1)).Nodup) :
    (sortByName entries).Pairwise fun a b => bytes a.1 < bytes b.1 := by
  have hdistinct : (sortByName entries).Pairwise fun a b => a.1 ≠ b.1 :=
    List.pairwise_map.1 (((sortByName_perm entries).map Prod.fst).nodup_iff.2 hnodup)
  have hsorted : (sortByName entries).Pairwise fun a b => bytes a.1 ≤ bytes b.1 :=
    pairwise_mergeSort_key (fun _ _ => decide_eq_true_iff) entries
  refine (hdistinct.and hsorted).imp ?_
  rintro a b ⟨hne, hle⟩
  exact lt_of_le_of_ne hle fun h => hne (Text.bytes_injective h)

/-- Entries in the order of their names are the same however they were read, where no two names are
the same. -/
theorem sortByName_eq_of_perm (hperm : entries.Perm others) (hnodup : (entries.map (·.1)).Nodup) :
    sortByName entries = sortByName others :=
  mergeSort_key_eq (fun _ _ => decide_eq_true_iff) (hperm.trans (sortByName_perm others).symm)
    (pairwise_lt_sortByName ((hperm.map _).nodup_iff.1 hnodup))

/-! ## Trees in the order of names -/

theorem isDirectory_inNameOrder (e : Entry) : (inNameOrder e).isDirectory = e.isDirectory := by
  cases e with
  | file content => rfl
  | directory entries => rfl

theorem map_fst_inNameOrderOne (entries : List (Text × Entry)) :
    (entries.map inNameOrderOne).map (·.1) = entries.map (·.1) := by
  rw [List.map_map]
  exact List.map_congr_left fun ⟨_, _⟩ _ => rfl

/-- A walk in the order of names meets what any walk meets. -/
theorem depthFirst_inNameOrder_perm (e : Entry) : (depthFirst (inNameOrder e)).Perm (depthFirst e) := by
  induction e using Entry.induction with
  | file content => exact .refl _
  | directory entries ih =>
      rw [inNameOrder_directory, depthFirst_directory, depthFirst_directory]
      refine ((sortByName_perm _).flatMap_right _).trans ?_
      rw [List.flatMap_map]
      refine List.Perm.flatMap_left _ fun a ha => ?_
      rw [inNameOrderOne, depthFirstOne, depthFirstOne, isDirectory_inNameOrder]
      split
      case isTrue => exact (ih a ha).map _
      case isFalse => exact .refl _

/-- A walk in the order of names meets files in the order of the names that lead to them: first names
first, and where these are the same the walk is below one directory. -/
theorem pairwise_depthFirst_inNameOrder (he : e.WellFormed) :
    (depthFirst (inNameOrder e)).Pairwise fun names others => names.map bytes < others.map bytes := by
  induction e using Entry.induction with
  | file content => exact .nil
  | directory entries ih =>
      cases he with
      | directory _ hnodup hentries =>
          rw [inNameOrder_directory, depthFirst_directory, List.pairwise_flatMap]
          constructor
          · -- below one entry all begin with its name, and what follows is in order by induction
            intro a ha
            rcases List.mem_map.1 ((sortByName_perm _).mem_iff.1 ha) with ⟨b, hmem, rfl⟩
            have hbelow := ih b hmem (hentries b hmem)
            rw [inNameOrderOne, depthFirstOne]
            split
            case isTrue =>
              refine List.pairwise_map.2 (hbelow.imp fun hlt => ?_)
              exact List.Lex.cons hlt
            case isFalse =>
              split
              case isTrue => exact List.pairwise_singleton _ _
              case isFalse => exact .nil
          · -- below two entries their names decide
            have hnames : ((entries.map inNameOrderOne).map (·.1)).Nodup := by
              rw [map_fst_inNameOrderOne]
              exact hnodup
            refine (pairwise_lt_sortByName hnames).imp fun hlt names hnames others hothers => ?_
            rcases exists_of_mem_depthFirstOne hnames with ⟨rest, rfl⟩
            rcases exists_of_mem_depthFirstOne hothers with ⟨more, rfl⟩
            exact List.Lex.rel hlt

theorem Reordered.wellFormed (h : Reordered e other) (he : e.WellFormed) : other.WellFormed := by
  induction h with
  | refl e => exact he
  | permuted hperm =>
      cases he with
      | directory hnames hnodup hentries =>
          exact .directory (fun a ha => hnames a (hperm.mem_iff.2 ha))
            ((hperm.map _).nodup_iff.1 hnodup) (fun a ha => hentries a (hperm.mem_iff.2 ha))
  | @within e other front name rest _ ih =>
      cases he with
      | directory hnames hnodup hentries =>
          rw [List.forall_mem_append, List.forall_mem_cons] at hnames hentries
          refine .directory ?_ (by simpa using hnodup) ?_
          · rw [List.forall_mem_append, List.forall_mem_cons]
            exact hnames
          · rw [List.forall_mem_append, List.forall_mem_cons]
            exact ⟨hentries.1, ih hentries.2.1, hentries.2.2⟩
  | trans _ _ ih ih' => exact ih' (ih he)

/-- The order of names does not depend on the one in which the entries were read. -/
theorem Reordered.inNameOrder_eq (h : Reordered e other) (he : e.WellFormed) :
    inNameOrder e = inNameOrder other := by
  induction h with
  | refl e => rfl
  | permuted hperm =>
      cases he with
      | directory _ hnodup _ =>
          rw [inNameOrder_directory, inNameOrder_directory,
            sortByName_eq_of_perm (hperm.map _) (by rw [map_fst_inNameOrderOne]; exact hnodup)]
  | @within e other front name rest _ ih =>
      cases he with
      | directory _ _ hentries =>
          have heq := ih (hentries (name, e) (by simp))
          simp only [inNameOrder_directory, List.map_append, List.map_cons, inNameOrderOne, heq]
  | trans hfirst _ ih ih' => rw [ih he, ih' (hfirst.wellFormed he)]

end Entry
end FileTree
end RecordFilter
