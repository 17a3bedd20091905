import RecordFilter.FileTree.Inputs
import RecordFilter.Proofs.FileTree.Trees

/-!
# Listing — the record files that a directory stands for

All entries below a directory are found in the order in which directories are read, and the paths of
the record files among them are sorted in the end.  The result is the walk that goes over each directory
in the order of its names (`recordFiles_eq`): paths compare name by name, so the files below a
directory come where its own name stands.
-/

namespace RecordFilter

open Text (bytes)
open FileTree.Entry (WellFormed Reordered Leads depthFirst depthFirstOne inNameOrder)
open FileTree.Path (pathBelow HasRecordExtension)

namespace FileTree

variable {disk : Disk} {tree other : Entry} {entries : List (Text × Entry)} {path text : Text}

/-! ## What is found -/

theorem belowEntries_eq_flatMap (extend : Text → Text → Text) (path : Text) (trail : Trail)
    (entries : List (Text × Entry)) :
    belowEntries extend path trail entries = entries.flatMap (belowEntry extend path trail) := by
  induction entries with
  | nil => rfl
  | cons a rest ih => rw [belowEntries, ih, List.flatMap_cons]

/-- The record files among the entries below one are those that a walk meets. -/
theorem map_path_filter_below (path : Text) (above : Trail) (e : Entry) :
    ((below Path.join path above e).filter Place.isRecordFile).map (·.path) =
      (depthFirst e).map (pathBelow path) := by
  induction e using Entry.induction generalizing path above with
  | file content => rfl
  | directory entries ih =>
      -- entry by entry there is its own place, and then the places below it
      rw [below, belowEntries_eq_flatMap, List.filter_flatMap, List.map_flatMap,
        Entry.depthFirst_directory, List.map_flatMap]
      refine List.flatMap_congr fun ⟨name, e⟩ hmem => ?_
      have hbelow := ih _ hmem (Path.join path name) (.directory entries :: above)
      rw [belowEntry, List.filter_cons, depthFirstOne]
      cases e with
      | file content =>
          have hrecord : Place.isRecordFile
              ⟨Path.join path name, name, .file content :: .directory entries :: above⟩ =
                Path.isRecordName name := rfl
          rw [hrecord, Entry.isDirectory, if_neg Bool.false_ne_true]
          cases Path.isRecordName name with
          | true => rfl
          | false => rfl
      | directory inner =>
          have hrecord : Place.isRecordFile
              ⟨Path.join path name, name, .directory inner :: .directory entries :: above⟩ =
                false := rfl
          rw [hrecord, Entry.isDirectory, if_neg Bool.false_ne_true, if_pos rfl, hbelow, List.map_map]
          rfl

theorem foundRecordFiles_eq (path : Text) (e : Entry) :
    foundRecordFiles path e = (depthFirst e).map (pathBelow path) := map_path_filter_below path [] e

/-! ## What is listed -/

/-- Sorting the names of a walk gives the walk in the order of names. -/
theorem mergeSort_depthFirst (htree : tree.WellFormed) :
    ((depthFirst tree).mergeSort fun names others =>
      decide (names.map bytes ≤ others.map bytes)) = depthFirst (inNameOrder tree) :=
  mergeSort_key_eq (fun _ _ => decide_eq_true_iff) (Entry.depthFirst_inNameOrder_perm tree).symm
    (Entry.pairwise_depthFirst_inNameOrder htree)

theorem isName_of_mem_depthFirst (htree : tree.WellFormed) {names : List Text}
    (h : names ∈ depthFirst tree) : ∀ name ∈ names, Path.IsName name := by
  rcases Entry.mem_depthFirst.1 h with ⟨_, _, hleads, -⟩
  exact hleads.isName htree

/-- The record files below a directory are the walk in the order of names, however its entries and
those of the directories below it were read. -/
theorem recordFiles_eq (hpath : path ≠ []) (htree : tree.WellFormed) (horder : Reordered tree other) :
    recordFiles path other = (depthFirst (inNameOrder tree)).map (pathBelow path) := by
  have hother : other.WellFormed := horder.wellFormed htree
  -- paths compare like the names that lead to them, so the names may be sorted in their place
  have hcompare : ∀ names ∈ depthFirst other, ∀ others ∈ depthFirst other,
      decide (names.map bytes ≤ others.map bytes) =
        (Path.order (pathBelow path names) (pathBelow path others)).isLE := by
    intro names hnames others hothers
    exact (Path.order_pathBelow hpath (isName_of_mem_depthFirst hother hnames)
      (isName_of_mem_depthFirst hother hothers)).symm
  rw [recordFiles, foundRecordFiles_eq, Path.sort, ← List.map_mergeSort hcompare,
    mergeSort_depthFirst hother, horder.inNameOrder_eq htree]

/-- Listed are the paths of files that names lead to, with the extension of record files. -/
theorem mem_listing : path ∈ (depthFirst (inNameOrder tree)).map (pathBelow text) ↔
    ∃ names content last, Leads tree names (.file content) ∧ names.getLast? = some last ∧
      HasRecordExtension last ∧ path = pathBelow text names := by
  have hperm := Entry.depthFirst_inNameOrder_perm tree
  rw [List.mem_map]
  constructor
  · rintro ⟨names, hnames, rfl⟩
    rcases Entry.mem_depthFirst.1 (hperm.mem_iff.1 hnames) with ⟨content, last, hleads, hlast, hrecord⟩
    exact ⟨names, content, last, hleads, hlast, Path.isRecordName_iff.1 hrecord, rfl⟩
  · rintro ⟨names, content, last, hleads, hlast, hrecord, rfl⟩
    have hnames := Entry.mem_depthFirst.2
      ⟨content, last, hleads, hlast, Path.isRecordName_iff.2 hrecord⟩
    exact ⟨names, hperm.mem_iff.2 hnames, rfl⟩

theorem nodup_listing (htext : text ≠ []) (htree : tree.WellFormed) :
    ((depthFirst (inNameOrder tree)).map (pathBelow text)).Nodup := by
  have hperm := Entry.depthFirst_inNameOrder_perm tree
  have hnodup : (depthFirst (inNameOrder tree)).Nodup := by
    refine (Entry.pairwise_depthFirst_inNameOrder htree).imp ?_
    rintro names _ hlt rfl
    exact lt_irrefl _ hlt
  refine List.Nodup.map_on ?_ hnodup
  intro names hnames others hothers
  exact Path.pathBelow_injective htext (isName_of_mem_depthFirst htree (hperm.mem_iff.1 hnames))
    (isName_of_mem_depthFirst htree (hperm.mem_iff.1 hothers))

/-- A text that leads to a directory names the record files below it: those that names lead to, at any
depth, with the extension of record files, each once.  They come in the order of a walk over each
directory in the byte order of its names, whatever the order in which the directories were read.  A
directory is not among them, whatever its name. -/
theorem inputs?_of_directory (htree : tree.WellFormed) (horder : Reordered tree (.directory entries))
    {above : Trail} (htrail : disk.trail? text = some (.directory entries :: above)) :
    ∃ paths, disk.inputs? text = some paths ∧
      paths = (depthFirst (inNameOrder tree)).map (pathBelow text) ∧
      paths.Nodup ∧
      (∀ path, path ∈ paths ↔ ∃ names content last, Leads tree names (.file content) ∧
        names.getLast? = some last ∧ HasRecordExtension last ∧ path = pathBelow text names) ∧
      ∀ names inner, Leads tree names (.directory inner) → pathBelow text names ∉ paths := by
  have htext : text ≠ [] := by
    rintro rfl
    cases htrail
  have hinputs : disk.inputs? text = some ((depthFirst (inNameOrder tree)).map (pathBelow text)) := by
    rw [← recordFiles_eq htext htree horder]
    simp only [Disk.inputs?, htrail]
  refine ⟨_, hinputs, rfl, nodup_listing htext htree, fun _ => mem_listing, ?_⟩
  intro names inner hleads hlisted
  rcases mem_listing.1 hlisted with ⟨others, content, _, hfile, -, -, hsame⟩
  have hnames : names = others :=
    Path.pathBelow_injective htext (hleads.isName htree) (hfile.isName htree) hsame
  rw [hnames] at hleads
  cases hleads.unique htree hfile

/-- Entries in the order of their names.  As texts, `a!.ndjson` comes before `a/b.json`. -/
def someEntries : List (Text × Entry) :=
  [(".json".toList, .file []), ("a".toList, .directory [("b.json".toList, .file [])]),
    ("a!.ndjson".toList, .file []), ("d.json".toList, .directory [("e.jsonl".toList, .file [])])]

/-- The entries are read from the last one to the first.  A name with nothing before its point has no
extension, and the files below a directory with one are listed. -/
theorem inputs?_of_reversed_entries :
    Disk.inputs? ⟨.directory someEntries.reverse, []⟩ ".".toList =
      some ["./a/b.json".toList, "./a!.ndjson".toList, "./d.json/e.jsonl".toList] := by
  have hone : ∀ name, inNameOrder (.directory [(name, .file [])]) = .directory [(name, .file [])] := by
    intro name
    rw [Entry.inNameOrder_directory]
    exact congrArg Entry.directory (List.mergeSort_singleton _)
  have hwellFormed : ∀ name, Path.IsName name → (Entry.directory [(name, .file [])]).WellFormed := by
    intro name hname
    exact .directory (by simpa using hname) (by simp) (by simpa using .file [])
  have htree : (Entry.directory someEntries).WellFormed := by
    refine .directory (by decide) (by decide) ?_
    simp only [someEntries, List.forall_mem_cons]
    exact ⟨.file _, hwellFormed _ (by decide), .file _, hwellFormed _ (by decide), by simp⟩
  have hsorted : inNameOrder (.directory someEntries) = .directory someEntries := by
    have hmap : someEntries.map Entry.inNameOrderOne = someEntries := by
      simp only [someEntries, List.map_cons, List.map_nil, Entry.inNameOrderOne, hone]
      rfl
    rw [Entry.inNameOrder_directory, hmap]
    exact congrArg Entry.directory (List.mergeSort_of_pairwise (by decide))
  rcases inputs?_of_directory htree (.permuted (List.reverse_perm someEntries).symm)
    (rfl : Disk.trail? ⟨.directory someEntries.reverse, []⟩ ".".toList = some [_]) with
    ⟨paths, hinputs, hpaths, -⟩
  rw [hinputs, hpaths, hsorted]
  rfl

end FileTree
end RecordFilter
