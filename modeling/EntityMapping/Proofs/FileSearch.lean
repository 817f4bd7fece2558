import EntityMapping.FileTree
import Mathlib.Data.List.Basic

/-! # The search for a database file

The folders below a path are listed in the order in which they are searched: a folder stands before
those in it, and these follow in the order of their names. The first of them that has a database
file gives the result, its least one. A folder is left out when it or one above it is skipped by its
name.
-/
namespace EntityMapping

section
variable {α β : Type} {name : α → String} {l : List α}

theorem leastBy_map {h : β → α} {l : List β} :
    leastBy name (l.map h) = (leastBy (fun b => name (h b)) l).map h := by
  induction l with
  | nil => rfl
  | cons b l ih =>
    rw [List.map_cons, leastBy, leastBy, ih]
    cases leastBy (fun b => name (h b)) l with
    | none => rfl
    | some c =>
      dsimp only [Option.map_some]
      split <;> rfl

theorem leastBy_eq_none_iff : leastBy name l = none ↔ l = [] := by
  cases l with
  | nil => exact ⟨fun _ => rfl, fun _ => rfl⟩
  | cons a l =>
    refine ⟨fun h => ?_, nofun⟩
    rw [leastBy] at h
    split at h
    · cases h
    · split at h <;> cases h

theorem leastBy_eq_some {a : α} (h : leastBy name l = some a) :
    a ∈ l ∧ ∀ b ∈ l, name a ≤ name b := by
  induction l generalizing a with
  | nil => cases h
  | cons c l ih =>
    rw [leastBy] at h
    cases hl : leastBy name l with
    | none =>
      obtain rfl := leastBy_eq_none_iff.1 hl
      obtain rfl := Option.some.inj h
      exact ⟨List.mem_cons_self, by simp⟩
    | some b =>
      rw [hl] at h
      obtain ⟨hb, hleast⟩ := ih hl
      dsimp only at h
      split at h
      · rename_i hlt
        obtain rfl := Option.some.inj h
        exact ⟨List.mem_cons_of_mem _ hb, List.forall_mem_cons.2
          ⟨String.not_lt.1 (String.lt_asymm hlt), hleast⟩⟩
      · rename_i hnot
        obtain rfl := Option.some.inj h
        have hle : name c ≤ name b := String.not_lt.1 hnot
        exact ⟨List.mem_cons_self, List.forall_mem_cons.2 ⟨String.le_refl _, fun d hd =>
          String.le_trans hle (hleast d hd)⟩⟩

end

def sortedByName {α : Type} (l : List (String × α)) : List (String × α) :=
  l.mergeSort fun a b => a.1 ≤ b.1

theorem mem_sortedByName {α : Type} {l : List (String × α)} {a : String × α} :
    a ∈ sortedByName l ↔ a ∈ l := List.mem_mergeSort

theorem sortedByName_cons {α : Type} (a : String × α) (l : List (String × α)) :
    ∃ before after, sortedByName (a :: l) = before ++ a :: after ∧
      sortedByName l = before ++ after ∧ (∀ b ∈ before, b.1 < a.1) ∧ ∀ b ∈ after, a.1 ≤ b.1 := by
  have htrans : ∀ a b c : String × α, decide (a.1 ≤ b.1) = true → decide (b.1 ≤ c.1) = true →
      decide (a.1 ≤ c.1) = true := fun a b c hab hbc =>
    decide_eq_true (String.le_trans (of_decide_eq_true hab) (of_decide_eq_true hbc))
  have htotal : ∀ a b : String × α, (decide (a.1 ≤ b.1) || decide (b.1 ≤ a.1)) = true := by
    intro a b
    simpa using String.le_total a.1 b.1
  obtain ⟨before, after, hcons, hrest, hlower⟩ := List.mergeSort_cons htrans htotal a l
  have hsorted := List.pairwise_mergeSort htrans htotal (a :: l)
  rw [hcons] at hsorted
  refine ⟨before, after, hcons, hrest, fun b hb => ?_, fun b hb => ?_⟩
  · simpa using hlower b hb
  · have hafter := (List.pairwise_cons.1 (List.pairwise_append.1 hsorted).2.1).1 b hb
    exact of_decide_eq_true hafter

/-- Of the entries that give something, the least is the first one in the order of the names. -/
theorem leastBy_filterMap {α γ : Type} (give : α → Option γ) (l : List (String × α)) :
    leastBy Prod.fst (l.filterMap fun a => (give a.2).map (a.1, ·)) =
      (sortedByName l).findSome? fun a => (give a.2).map (a.1, ·) := by
  induction l with
  | nil =>
    rw [sortedByName, List.mergeSort_nil]
    rfl
  | cons a l ih =>
    obtain ⟨before, after, hcons, hrest, hlower, hupper⟩ := sortedByName_cons a l
    rw [hrest, List.findSome?_append] at ih
    rw [hcons, List.findSome?_append, List.findSome?_cons, List.filterMap_cons]
    cases ha : give a.2 with
    | none => exact ih
    | some c =>
      have hname : ∀ {b : String × α} {p : String × γ},
          (give b.2).map (b.1, ·) = some p → p.1 = b.1 := by
        intro b p hp
        obtain ⟨_, _, rfl⟩ := Option.map_eq_some_iff.1 hp
        rfl
      dsimp only [Option.map_some]
      rw [leastBy, ih]
      -- what an entry of a lower name gives is less, what any other gives is not
      cases hbefore : before.findSome? fun a => (give a.2).map (a.1, ·) with
      | some p =>
        obtain ⟨b, hb, hp⟩ := List.exists_of_findSome?_eq_some hbefore
        have hlt : p.1 < a.1 := hname hp ▸ hlower b hb
        exact if_pos hlt
      | none =>
        cases hafter : after.findSome? fun a => (give a.2).map (a.1, ·) with
        | none => rfl
        | some p =>
          obtain ⟨b, hb, hp⟩ := List.exists_of_findSome?_eq_some hafter
          have hle : a.1 ≤ p.1 := hname hp ▸ hupper b hb
          exact if_neg (String.not_lt.2 hle)

namespace Folder

/-- The folder that some names lead to, none of which is skipped. -/
inductive Below : Folder → List String → Folder → Prop
  | here (d : Folder) : Below d [] d
  | enter {d child below : Folder} {name : String} {parts : List String}
    (hfolder : (name, child) ∈ d.folders) (hname : name ∉ skippedFolders)
    (hbelow : Below child parts below) : Below d (name :: parts) below

/-- A folder that is searched below another one, and its path. -/
def Reaches (top : Folder) (path root : String) (d : Folder) : Prop :=
  ∃ parts, top.Below parts d ∧ root = parts.foldl joinPath path

theorem Reaches.here (d : Folder) (path : String) : d.Reaches path path d := ⟨[], .here d, rfl⟩

theorem Reaches.enter {path root name : String} {d child below : Folder}
    (hfolder : (name, child) ∈ d.folders) (hname : name ∉ skippedFolders)
    (h : child.Reaches (joinPath path name) root below) : d.Reaches path root below := by
  obtain ⟨parts, hbelow, hroot⟩ := h
  exact ⟨name :: parts, .enter hfolder hname hbelow, hroot⟩

mutual

/-- The folders that are searched, each with its path, a folder before those in it. -/
def walk (path : String) : Folder → List (String × Folder)
  | .node files folders =>
    (path, .node files folders) :: (sortedByName (walkFolders path folders)).flatMap Prod.snd

def walkFolders (path : String) : List (String × Folder) → List (String × List (String × Folder))
  | [] => []
  | (name, d) :: rest =>
    if name ∈ skippedFolders then walkFolders path rest
    else (name, walk (joinPath path name) d) :: walkFolders path rest

end

def HasDatabase (d : Folder) : Prop := ∃ name ∈ d.files, isDatabaseName name

instance : DecidablePred HasDatabase := fun d =>
  inferInstanceAs (Decidable (∃ name ∈ d.files, isDatabaseName name))

structure IsFirstDatabase (d : Folder) (name : String) : Prop where
  mem : name ∈ d.files
  isDatabase : isDatabaseName name
  least : ∀ other ∈ d.files, isDatabaseName other → name ≤ other

theorem reaches_node {path root : String} {files : List String} {folders : List (String × Folder)}
    {d : Folder} : (node files folders).Reaches path root d ↔
      (root = path ∧ d = .node files folders) ∨
        ∃ f ∈ folders, f.1 ∉ skippedFolders ∧ f.2.Reaches (joinPath path f.1) root d := by
  constructor
  · rintro ⟨parts, hbelow, hroot⟩
    cases hbelow with
    | here => exact .inl ⟨hroot, rfl⟩
    | enter hfolder hname hbelow => exact .inr ⟨_, hfolder, hname, _, hbelow, hroot⟩
  · rintro (⟨rfl, rfl⟩ | ⟨_, hfolder, hname, hreached⟩)
    · exact .here _ _
    · exact .enter hfolder hname hreached

mutual

theorem mem_walk_iff {path root : String} {d : Folder} :
    (top : Folder) → ((root, d) ∈ top.walk path ↔ top.Reaches path root d)
  | .node files folders => by
    rw [walk, List.mem_cons, List.mem_flatMap, reaches_node, ← mem_walkFolders_iff folders]
    simp only [mem_sortedByName, Prod.mk.injEq]

theorem mem_walkFolders_iff {path root : String} {d : Folder} :
    (folders : List (String × Folder)) → ((∃ w ∈ walkFolders path folders, (root, d) ∈ w.2) ↔
      ∃ f ∈ folders, f.1 ∉ skippedFolders ∧ f.2.Reaches (joinPath path f.1) root d)
  | [] => by simp [walkFolders]
  | (name, child) :: rest => by
    rw [walkFolders, List.exists_mem_cons_iff, ← mem_walkFolders_iff rest]
    by_cases hskip : name ∈ skippedFolders
    · rw [if_pos hskip, or_iff_right fun h => h.1 hskip]
    · rw [if_neg hskip, List.exists_mem_cons_iff, mem_walk_iff child, and_iff_right hskip]

end

def firstFile (p : String × Folder) : Option String :=
  (leastBy id (p.2.files.filter isDatabaseName)).map (joinPath p.1)

theorem findSome?_flatMap {α β γ : Type} {f : β → Option γ} {g : α → List β} {l : List α} :
    (l.flatMap g).findSome? f = l.findSome? fun a => (g a).findSome? f := by
  simp only [← List.head?_filterMap, List.filterMap_flatMap, List.head?_flatMap]

mutual

/-- The search finds what is found first in the listing. -/
theorem search_eq (path : String) : (d : Folder) →
    d.search.map (fun parts => parts.foldl joinPath path) = (d.walk path).findSome? firstFile
  | .node files folders => by
    rw [search, walk, List.findSome?_cons, firstFile, Folder.files]
    cases leastBy id (files.filter isDatabaseName) with
    | some name => rfl
    | none =>
      -- without a file of its own, a folder gives what its first folder with one gives
      have hleast := leastBy_filterMap (fun l => l.findSome? firstFile) (walkFolders path folders)
      rw [← searchFolders_eq path folders, leastBy_map] at hleast
      have hfile := congrArg (Option.map Prod.snd) hleast
      rw [Option.map_map, List.map_findSome?] at hfile
      dsimp only [Option.map_none]
      rw [findSome?_flatMap]
      refine hfile.trans (congrArg (fun f => List.findSome? f _) (funext fun w => ?_))
      rw [Function.comp_apply, Option.map_map]
      exact Option.map_id'

theorem searchFolders_eq (path : String) : (folders : List (String × Folder)) →
    (searchFolders folders).map (fun parts => (parts.headD "", parts.foldl joinPath path)) =
      (walkFolders path folders).filterMap fun w => (w.2.findSome? firstFile).map (w.1, ·)
  | [] => rfl
  | (name, d) :: rest => by
    have hrest := searchFolders_eq path rest
    have hd := search_eq (joinPath path name) d
    rw [searchFolders, walkFolders]
    by_cases hskip : name ∈ skippedFolders
    · rw [if_pos hskip, if_pos hskip]
      exact hrest
    · rw [if_neg hskip, if_neg hskip, List.filterMap_cons, ← hd]
      cases d.search with
      | none => exact hrest
      | some parts =>
        dsimp only [Option.map_some]
        rw [List.map_cons, hrest]
        rfl

end

theorem firstFile_eq_none_iff {p : String × Folder} : firstFile p = none ↔ ¬ p.2.HasDatabase := by
  rw [firstFile, Option.map_eq_none_iff, leastBy_eq_none_iff, List.filter_eq_nil_iff, HasDatabase]
  simp

theorem isFirstDatabase_of_firstFile {p : String × Folder} {file : String}
    (h : firstFile p = some file) :
    ∃ name, p.2.IsFirstDatabase name ∧ file = joinPath p.1 name := by
  obtain ⟨name, hname, rfl⟩ := Option.map_eq_some_iff.1 h
  obtain ⟨hmem, hleast⟩ := leastBy_eq_some hname
  obtain ⟨hfile, hdatabase⟩ := List.mem_filter.1 hmem
  refine ⟨name, ⟨hfile, hdatabase, fun other ho hd => ?_⟩, rfl⟩
  exact hleast other (List.mem_filter.2 ⟨ho, hd⟩)

mutual

/-- Only folders that the search does not enter may be left out. -/
theorem search_within {follows : String → Bool} {path : String} : (d : Folder) →
    (∀ root below, d.Reaches path root below → follows root) →
      (d.within follows path).search = d.search
  | .node files folders, h => by
    have hfolders := searchFolders_within folders fun f hf hname root below hbelow =>
      h root below (.enter hf hname hbelow)
    rw [within, search, search, hfolders]

theorem searchFolders_within {follows : String → Bool} {path : String} :
    (folders : List (String × Folder)) → (∀ f ∈ folders, f.1 ∉ skippedFolders →
      ∀ root below, f.2.Reaches (joinPath path f.1) root below → follows root) →
        searchFolders (foldersWithin follows path folders) = searchFolders folders
  | [], _ => rfl
  | (name, d) :: rest, h => by
    obtain ⟨hd, hrest⟩ := List.forall_mem_cons.1 h
    rw [foldersWithin, searchFolders]
    by_cases hskip : name ∈ skippedFolders
    · rw [if_pos hskip]
      split
      · rw [searchFolders, if_pos hskip, searchFolders_within rest hrest]
      · exact searchFolders_within rest hrest
    · have hfollows : follows (joinPath path name) := hd hskip _ d (.here d _)
      rw [if_pos hfollows, searchFolders, if_neg hskip, if_neg hskip, search_within d (hd hskip),
        searchFolders_within rest hrest]

end

end Folder

namespace FileTree

/-- What the search below a path has to find. -/
structure IsFound (t : FileTree) (path : String) (found : Option String) : Prop where
  none_iff : found = none ↔ ¬ ∃ top root d, t.folderAt? path = some top ∧
    top.Reaches path root d ∧ d.HasDatabase
  first : ∀ file ∈ found, ∃ top root d name, t.folderAt? path = some top ∧
    (top.walk path).find? (fun p => p.2.HasDatabase) = some (root, d) ∧ top.Reaches path root d ∧
    d.IsFirstDatabase name ∧ file = joinPath root name

theorem isFound_walk {t : FileTree} {path : String} {top : Folder}
    (htop : t.folderAt? path = some top) :
    t.IsFound path ((top.walk path).findSome? Folder.firstFile) := by
  constructor
  · rw [List.findSome?_eq_none_iff]
    constructor
    · rintro hnone ⟨top', root, d, htop', hreached, hdatabase⟩
      obtain rfl := Option.some.inj (htop.symm.trans htop')
      have hlisted := (Folder.mem_walk_iff top).2 hreached
      exact Folder.firstFile_eq_none_iff.1 (hnone (root, d) hlisted) hdatabase
    · intro hnone p hp
      exact Folder.firstFile_eq_none_iff.2 fun hdatabase =>
        hnone ⟨top, p.1, p.2, htop, (Folder.mem_walk_iff top).1 hp, hdatabase⟩
  · intro file hfile
    obtain ⟨before, p, after, hwalk, hfirst, hbefore⟩ := List.findSome?_eq_some_iff.1 hfile
    obtain ⟨name, hname, rfl⟩ := Folder.isFirstDatabase_of_firstFile hfirst
    have hp : (p.1, p.2) ∈ top.walk path := by
      rw [hwalk]
      exact List.mem_append_right _ List.mem_cons_self
    refine ⟨top, p.1, p.2, name, htop, ?_, (Folder.mem_walk_iff top).1 hp, hname, rfl⟩
    refine List.find?_eq_some_iff_append.2 ⟨?_, before, after, hwalk, fun q hq => ?_⟩
    · exact decide_eq_true ⟨name, hname.mem, hname.isDatabase⟩
    · simpa using Folder.firstFile_eq_none_iff.1 (hbefore q hq)

/-- The system follows the paths of the folders that are searched. -/
def FollowsBelow (t : FileTree) (path : String) : Prop :=
  ∀ top root d, t.folderAt? path = some top → top.Reaches path root d → t.follows root

theorem followsBelow_of_longest_eq_none {t : FileTree} (ht : t.longest = none) (path : String) :
    t.FollowsBelow path := fun _ _ _ _ _ => by rw [follows, ht]; rfl

theorem followsBelow_of_walk {t : FileTree} {path : String} {top : Folder}
    (htop : t.folderAt? path = some top) (h : ∀ p ∈ top.walk path, t.follows p.1) :
    t.FollowsBelow path := by
  intro top' root d htop' hreached
  obtain rfl := Option.some.inj (htop.symm.trans htop')
  exact h (root, d) ((Folder.mem_walk_iff top).2 hreached)

/-- The search finds the first database file below a path, if there is one. -/
theorem database_isFound {t : FileTree} {path : String} (h : '\x00' ∉ path.toList)
    (hfollows : t.FollowsBelow path) :
    ∃ found, t.database path = .ok found ∧ t.IsFound path found := by
  have hnul : Text.nulFree path = .ok path := by
    rw [Text.nulFree, if_neg (by simpa using h)]
  refine ⟨t.database? path, by rw [database, hnul]; rfl, ?_⟩
  rw [database?]
  cases htop : t.folderAt? path with
  | none =>
    rw [Option.bind_none, Option.map_none, ite_self]
    refine ⟨⟨?_, fun _ => rfl⟩, nofun⟩
    rintro _ ⟨top, _, _, htop', _⟩
    cases htop.symm.trans htop'
  | some top =>
    have hbelow : ∀ root d, top.Reaches path root d → t.follows root := fun root d =>
      hfollows top root d htop
    have hpath : t.follows path := hbelow path top (.here top path)
    rw [if_pos hpath, Option.bind_some, Folder.search_within top hbelow, Folder.search_eq]
    exact isFound_walk htop

/-- A system with database files in some folders, one of them skipped by its name. -/
def shelves : FileTree where
  top := .node [] [("home", .node ["old.db"] [("work", .node ["notes.txt"] [
    ("vendor", .node ["a.db"] []), ("data", .node ["b.sqlite", "a.db"] []),
    ("backup", .node [] [])])])]
  current := ["home", "work"]

/-- The path of a target is from the top, or from the working folder down or up. A bound on the
paths is not met by those that are searched. -/
theorem database_isFound_shelves : (∀ path, shelves.FollowsBelow path) ∧
    { shelves with longest := some 4095 }.FollowsBelow "data/../.." ∧
    '\x00' ∉ "/home/work".toList ∧ '\x00' ∉ ".".toList ∧ '\x00' ∉ "data/../..".toList ∧
    shelves.IsFound "/home/work" (some "/home/work/data/a.db") ∧
    shelves.IsFound "." (some "./data/a.db") ∧
    { shelves with longest := some 4095 }.IsFound "data/../.." (some "data/../../old.db") := by
  have found : ∀ {t : FileTree} {path file : String}, '\x00' ∉ path.toList → t.FollowsBelow path →
      t.database path = .ok (some file) → t.IsFound path (some file) := by
    intro t path file hnul hfollows hfile
    obtain ⟨_, hrun, hfound⟩ := database_isFound hnul hfollows
    rwa [Except.ok.inj (hfile.symm.trans hrun)]
  have hfree : ∀ path, shelves.FollowsBelow path := followsBelow_of_longest_eq_none rfl
  have hbounded : { shelves with longest := some 4095 }.FollowsBelow "data/../.." := by
    refine followsBelow_of_walk rfl ?_
    simp +decide [Folder.walk, Folder.walkFolders, sortedByName, List.mergeSort, joinPath]
  exact ⟨hfree, hbounded, by decide, by decide, by decide, found (by decide) (hfree _) (by decide),
    found (by decide) (hfree _) (by decide), found (by decide) hbounded (by decide)⟩

end FileTree
end EntityMapping
