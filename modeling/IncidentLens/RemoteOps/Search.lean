import IncidentLens.Data.BreadthFirst
import IncidentLens.RemoteOps.Files

/-!
# What a search finds

The queue of a search serves the directories level by level. The files in them are read in this order until
200 lines are found, whatever transport presents the tree; a directory is begun while fewer than 10 000 files
were counted. A container presents the tree of a host when it prints plain names, directories of size zero and
files of another size.
-/
namespace IncidentLens.RemoteOps.Files
open Data Logs Investigations Investigations.Discovery List

/-! ### Directories and files -/

structure Item where
  path : RemotePath
  node : Node

def Node.entered : Node → Bool
  | file attributes _ => !attributes.typed && decide (attributes.size = 0)
  | dir attributes _ => attributes.typed || decide (attributes.size = 0)
  | link _ => false

def Node.tried (node : Node) : Bool := !node.isLink && !node.entered

def enteredAmong (items : List Item) : List Item := items.filter fun item => item.node.entered

def triedAmong (items : List Item) : List Item := items.filter fun item => item.node.tried

def filesAmong (items : List Item) : List Item := items.filter fun item => item.node.isFile

namespace Item

def children (item : Item) : List Item := item.node.entries.map fun entry => ⟨RemotePath.child item.path entry.1, entry.2⟩

def subdirs (item : Item) : List Item := enteredAmong item.children

def tries (item : Item) : List Item := triedAmong item.children

end Item

lemma triedAmong_append (items items' : List Item) : triedAmong (items ++ items') = triedAmong items ++ triedAmong items' :=
  filter_append ..

lemma filesAmong_append (items items' : List Item) : filesAmong (items ++ items') = filesAmong items ++ filesAmong items' :=
  filter_append ..

lemma sum_sizeOf_le (path : RemotePath) (entries : List (String × Node)) :
    ((enteredAmong (entries.map fun entry => (⟨RemotePath.child path entry.1, entry.2⟩ : Item))).map fun child =>
      sizeOf child.node).sum ≤ sizeOf entries := by
  unfold enteredAmong
  induction entries with
  | nil => simp
  | cons entry entries ih =>
    have hentry : sizeOf entry.2 ≤ sizeOf entry := by
      cases entry
      simp
    rw [map_cons, filter_cons]
    simp only [cons.sizeOf_spec]
    split_ifs
    · rw [map_cons, sum_cons]
      change sizeOf entry.2 + _ ≤ _
      omega
    · omega

/-- The directories below a directory. -/
noncomputable def directories : Branching Item where
  children := Item.subdirs
  size item := sizeOf item.node
  size_children := by
    rintro ⟨path, node⟩
    cases node with
    | dir attributes entries =>
      have hsum := sum_sizeOf_le path entries
      simp only [Item.subdirs, Item.children, Node.entries, Node.dir.sizeOf_spec]
      omega
    | file attributes content => simp [Item.subdirs, Item.children, enteredAmong, Node.entries]
    | link attributes => simp [Item.subdirs, Item.children, enteredAmong, Node.entries]

section
variable (decode : Bytes → List Char) (query : List Char)

/-- The matching lines among some lines, the first of which has a number. -/
def matchesFrom (path : RemotePath) : ℕ → List Bytes → List SearchMatch
  | _, [] => []
  | number, line :: lines =>
    if contains query (decode line) then ⟨path, number, (decode line).take 2000⟩ :: matchesFrom path (number + 1) lines
    else matchesFrom path (number + 1) lines

/-- The matching lines of a file, as far as it is read. -/
def matchesIn (path : RemotePath) (content : Bytes) : List SearchMatch :=
  matchesFrom decode query path 1 ((content.take maxSearchFileBytes).splitOn 10)

def Item.found (item : Item) : List SearchMatch :=
  if item.node.isFile then matchesIn decode query item.path item.node.content else []

def foundIn (items : List Item) : List SearchMatch := items.flatMap (Item.found decode query)

/-- The items that are tried while there is room for matches. -/
def upTo : ℕ → List Item → List Item
  | _, [] => []
  | room, item :: items => if room = 0 then [] else item :: upTo (room - (item.found decode query).length) items

@[simp] lemma foundIn_nil : foundIn decode query [] = [] := rfl

@[simp] lemma foundIn_cons (item : Item) (items : List Item) :
    foundIn decode query (item :: items) = item.found decode query ++ foundIn decode query items := rfl

@[simp] lemma foundIn_append (items items' : List Item) :
    foundIn decode query (items ++ items') = foundIn decode query items ++ foundIn decode query items' :=
  flatMap_append

@[simp] lemma upTo_zero (items : List Item) : upTo decode query 0 items = [] := by
  cases items with
  | nil => rfl
  | cons item items => rw [upTo, if_pos rfl]

lemma upTo_append (room : ℕ) (items items' : List Item) : upTo decode query room (items ++ items') =
    upTo decode query room items ++ upTo decode query (room - (foundIn decode query items).length) items' := by
  induction items generalizing room with
  | nil => simp [upTo]
  | cons item items ih =>
    by_cases hroom : room = 0
    · subst hroom
      simp
    · rw [cons_append, upTo, if_neg hroom, ih, upTo, if_neg hroom, foundIn_cons, length_append, Nat.sub_sub]
      rfl

lemma upTo_isPrefix (room : ℕ) (items : List Item) : upTo decode query room items <+: items := by
  induction items generalizing room with
  | nil => exact prefix_rfl
  | cons item items ih =>
    unfold upTo
    split_ifs
    · exact nil_prefix
    · exact cons_prefix_cons.mpr ⟨rfl, ih _⟩

lemma take_foundIn_upTo (room : ℕ) (items : List Item) :
    (foundIn decode query (upTo decode query room items)).take room = (foundIn decode query items).take room := by
  induction items generalizing room with
  | nil => rfl
  | cons item items ih =>
    unfold upTo
    split_ifs with hroom
    · simp [hroom]
    · simp only [foundIn_cons, take_append, ih]

lemma matchLines_spec {path : RemotePath} {number : ℕ} {lines : List Bytes} {found : List SearchMatch}
    (h : found.length ≤ maxSearchMatches) : (matchLines decode query path number lines found).1 =
        (found ++ matchesFrom decode query path number lines).take maxSearchMatches ∧
      ((matchLines decode query path number lines found).2 = true →
        maxSearchMatches ≤ (found ++ matchesFrom decode query path number lines).length) ∧
      ((matchLines decode query path number lines found).2 = false →
        (found ++ matchesFrom decode query path number lines).length ≤ maxSearchMatches) := by
  induction lines generalizing number found with
  | nil => simpa [matchLines, matchesFrom] using h
  | cons line lines ih =>
    by_cases hfull : maxSearchMatches ≤ found.length
    · have hlength : found.length = maxSearchMatches := le_antisymm h hfull
      simp only [matchLines, hfull, if_true]
      refine ⟨?_, fun _ => ?_, nofun⟩
      · rw [← hlength, take_left]
      · rw [length_append]
        omega
    · by_cases hmatch : contains query (decode line) = true
      · simp only [matchLines, hfull, if_false, hmatch, if_true, matchesFrom]
        have hsnoc : (found ++ [(⟨path, number, (decode line).take 2000⟩ : SearchMatch)]).length ≤ maxSearchMatches := by
          rw [length_append, length_singleton]
          omega
        simpa only [append_assoc, singleton_append] using @ih (number + 1) _ hsnoc
      · simp only [matchLines, hfull, if_false, hmatch, matchesFrom]
        exact ih h

/-! ### One directory -/

def Item.answer (item : Item) : Except FileError Bytes :=
  if item.node.isFile then .ok (item.node.content.take maxSearchFileBytes) else .error .remotePath

/-- A transport shows an item of a directory as what it is on the host. -/
structure Presents (transport : Transport) (describe : Item → FileMetadata) (current : RemotePath) (item : Item) : Prop where
  path : (describe item).path = item.path
  link : (describe item).isSymlink = item.node.isLink
  below : item.path ≠ current ∧ name item.path ≠ ".."
  entered : item.node.isLink = false → isDirectoryEntry (describe item) = item.node.entered
  content : item.node.tried = true → transport.readBytes item.path maxSearchFileBytes = item.answer

variable {transport : Transport} {describe : Item → FileMetadata}

section
variable {current : RemotePath} {item : Item} {entries : List FileMetadata} {walk : Walk}

lemma visitEntries_link (hpresents : Presents transport describe current item) (hroom : walk.found.length < maxSearchMatches)
    (h : item.node.isLink = true) : visitEntries decode query transport current (describe item :: entries) walk =
      visitEntries decode query transport current entries walk := by
  rw [visitEntries, if_neg (not_le.mpr hroom), if_pos (hpresents.link.trans h)]

lemma visitEntries_entered (hpresents : Presents transport describe current item)
    (hroom : walk.found.length < maxSearchMatches) (hlink : item.node.isLink = false) (h : item.node.entered = true) :
    visitEntries decode query transport current (describe item :: entries) walk =
      visitEntries decode query transport current entries { walk with dirs := walk.dirs ++ [item.path] } := by
  have hbelow : (decide ((describe item).path = current) || decide (name (describe item).path = "..")) = false := by
    simp [hpresents.path, hpresents.below]
  rw [visitEntries, if_neg (not_le.mpr hroom), if_neg (by simp [hpresents.link, hlink]), hbelow, if_neg Bool.false_ne_true,
    if_pos ((hpresents.entered hlink).trans h), hpresents.path]

lemma visitEntries_tried (hpresents : Presents transport describe current item)
    (hroom : walk.found.length < maxSearchMatches) (htried : item.node.tried = true) :
    visitEntries decode query transport current (describe item :: entries) walk =
      if item.node.isFile then
        let searched := matchLines decode query item.path 1
          ((item.node.content.take maxSearchFileBytes).splitOn 10) walk.found
        let walk := { walk with
          filesVisited := walk.filesVisited + 1
          reads := walk.reads ++ [item.path]
          found := searched.1 }
        if searched.2 then .ok (walk, true) else visitEntries decode query transport current entries walk
      else visitEntries decode query transport current entries { walk with filesVisited := walk.filesVisited + 1 } := by
  have hkind : item.node.isLink = false ∧ item.node.entered = false := by simpa [Node.tried] using htried
  have hbelow : (decide ((describe item).path = current) || decide (name (describe item).path = "..")) = false := by
    simp [hpresents.path, hpresents.below]
  rw [visitEntries, if_neg (not_le.mpr hroom), if_neg (by simp [hpresents.link, hkind.1]), hbelow, if_neg Bool.false_ne_true,
    if_neg (by simp [hpresents.entered hkind.1, hkind.2]), hpresents.path, hpresents.content htried, Item.answer]
  by_cases hfile : item.node.isFile = true
  · simp only [hfile, if_true]
  · simp only [hfile, Bool.false_eq_true, if_false]

end

structure Visited (walk : Walk) (items : List Item) (final : Walk) (returned : Bool) : Prop where
  found_eq : final.found = (walk.found ++ foundIn decode query (triedAmong items)).take maxSearchMatches
  reads_eq : final.reads = walk.reads ++
    (filesAmong (upTo decode query (maxSearchMatches - walk.found.length) (triedAmong items))).map Item.path
  full : returned = true → maxSearchMatches ≤ (walk.found ++ foundIn decode query (triedAmong items)).length
  room : returned = false → (walk.found ++ foundIn decode query (triedAmong items)).length ≤ maxSearchMatches
  visited : returned = false → final.filesVisited = walk.filesVisited + (triedAmong items).length
  dirs : returned = false → final.dirs = walk.dirs ++ (enteredAmong items).map Item.path

variable {decode query} in
lemma Visited.congr {walk final : Walk} {items items' : List Item} {returned : Bool}
    (h : Visited decode query walk items final returned) (htried : triedAmong items' = triedAmong items)
    (hentered : enteredAmong items' = enteredAmong items) : Visited decode query walk items' final returned := by
  refine ⟨?_, ?_, fun hr => ?_, fun hr => ?_, fun hr => ?_, fun hr => ?_⟩
  · rw [htried, h.found_eq]
  · rw [htried, h.reads_eq]
  · rw [htried]
    exact h.full hr
  · rw [htried]
    exact h.room hr
  · rw [htried, h.visited hr]
  · rw [hentered, h.dirs hr]

lemma visitEntries_spec {current : RemotePath} {items : List Item} {walk : Walk}
    (hroom : walk.found.length ≤ maxSearchMatches) (hpresents : ∀ before item after, items = before ++ item :: after →
      walk.found.length + (foundIn decode query (triedAmong before)).length < maxSearchMatches →
      Presents transport describe current item) :
    ∃ final returned, visitEntries decode query transport current (items.map describe) walk = .ok (final, returned) ∧
      Visited decode query walk items final returned := by
  induction items generalizing walk with
  | nil =>
    refine ⟨walk, false, rfl, ?_, ?_, nofun, fun _ => ?_, fun _ => ?_, fun _ => ?_⟩ <;>
      simp [upTo, triedAmong, enteredAmong, filesAmong, take_of_length_le hroom, hroom]
  | cons item items ih =>
    by_cases hfull : maxSearchMatches ≤ walk.found.length
    · -- the search returns at the next entry
      have hlength : walk.found.length = maxSearchMatches := le_antisymm hroom hfull
      refine ⟨walk, true, ?_, ?_, ?_, fun _ => ?_, nofun, nofun, nofun⟩
      · rw [map_cons, visitEntries, if_pos hfull]
      · rw [← hlength, take_left]
      · simp [hlength, filesAmong]
      · rw [length_append]
        omega
    have hless : walk.found.length < maxSearchMatches := not_le.mp hfull
    have hitem := hpresents [] item items rfl (by simpa [triedAmong] using hless)
    have htail : ∀ {found : List SearchMatch},
        found.length = walk.found.length + (foundIn decode query (triedAmong [item])).length →
        ∀ before item' after, items = before ++ item' :: after →
        found.length + (foundIn decode query (triedAmong before)).length < maxSearchMatches →
        Presents transport describe current item' := by
      intro found hfound before item' after hsplit hroom'
      refine hpresents (item :: before) item' after (by rw [hsplit]; rfl) ?_
      rw [← singleton_append, triedAmong_append, foundIn_append, length_append]
      omega
    rw [map_cons]
    by_cases hlink : item.node.isLink = true
    · -- symbolic links are passed over
      have htried : triedAmong (item :: items) = triedAmong items := filter_cons_of_neg (by simp [Node.tried, hlink])
      have hentered : enteredAmong (item :: items) = enteredAmong items := by
        refine filter_cons_of_neg ?_
        cases hnode : item.node <;> simp_all [Node.isLink, Node.entered]
      obtain ⟨final, returned, hvisit, hvisited⟩ := ih hroom (htail (by simp [triedAmong, Node.tried, hlink]))
      refine ⟨final, returned, ?_, hvisited.congr htried hentered⟩
      rw [visitEntries_link decode query hitem hless hlink, hvisit]
    have hlink' : item.node.isLink = false := by simpa using hlink
    by_cases hdir : item.node.entered = true
    · -- a directory is put at the end of the queue
      have htried : triedAmong (item :: items) = triedAmong items := filter_cons_of_neg (by simp [Node.tried, hdir])
      have hentered : enteredAmong (item :: items) = item :: enteredAmong items := filter_cons_of_pos hdir
      obtain ⟨final, returned, hvisit, hvisited⟩ :=
        @ih { walk with dirs := walk.dirs ++ [item.path] } hroom (htail (by simp [triedAmong, Node.tried, hdir]))
      refine ⟨final, returned, ?_, ⟨?_, ?_, ?_, ?_, ?_, fun h => ?_⟩⟩
      · rw [visitEntries_entered decode query hitem hless hlink' hdir, hvisit]
      · rw [htried, hvisited.found_eq]
      · rw [htried, hvisited.reads_eq]
      · rw [htried]
        exact hvisited.full
      · rw [htried]
        exact hvisited.room
      · rw [htried]
        exact hvisited.visited
      · rw [hvisited.dirs h, hentered, map_cons, append_assoc, singleton_append]
    have hnot : item.node.entered = false := by simpa using hdir
    have htry : item.node.tried = true := by simp [Node.tried, hlink', hnot]
    have htried : triedAmong (item :: items) = item :: triedAmong items := filter_cons_of_pos htry
    have hentered : enteredAmong (item :: items) = enteredAmong items := filter_cons_of_neg (by simp [hnot])
    have hupTo : upTo decode query (maxSearchMatches - walk.found.length) (triedAmong (item :: items)) =
        item :: upTo decode query (maxSearchMatches - (walk.found.length + (item.found decode query).length))
          (triedAmong items) := by
      rw [htried, upTo, if_neg (by omega), Nat.sub_sub]
    have hone : (foundIn decode query (triedAmong [item])).length = (item.found decode query).length := by
      simp [triedAmong, htry]
    by_cases hfile : item.node.isFile = true
    · -- a file is read and its lines are searched
      have hfiles : ∀ items, filesAmong (item :: items) = item :: filesAmong items := fun items => filter_cons_of_pos hfile
      have hfoundItem : item.found decode query = matchesFrom decode query item.path 1
          ((item.node.content.take maxSearchFileBytes).splitOn 10) := by rw [Item.found, if_pos hfile, matchesIn]
      have hspec := @matchLines_spec decode query item.path 1
        ((item.node.content.take maxSearchFileBytes).splitOn 10) _ hroom
      rw [← hfoundItem] at hspec
      have hstep := @visitEntries_tried decode query transport describe current item (items.map describe) walk
        hitem hless htry
      rw [if_pos hfile] at hstep
      set searched := matchLines decode query item.path 1 ((item.node.content.take maxSearchFileBytes).splitOn 10) walk.found
      cases hreturned : searched.2 with
      | true =>
        have hlength := hspec.2.1 hreturned
        refine ⟨{ walk with
          filesVisited := walk.filesVisited + 1
          reads := walk.reads ++ [item.path]
          found := searched.1 }, true, ?_, ?_, ?_, fun _ => ?_, nofun, nofun, nofun⟩
        · rw [hstep]
          simp only [hreturned, if_true]
        · rw [hspec.1, htried, foundIn_cons, ← append_assoc, take_append_of_le_length hlength]
        · have hzero : maxSearchMatches - (walk.found.length + (item.found decode query).length) = 0 := by
            rw [length_append] at hlength
            omega
          rw [hupTo, hzero, upTo_zero, hfiles]
          rfl
        · rw [htried, foundIn_cons, ← append_assoc, length_append]
          omega
      | false =>
        have hlength := hspec.2.2 hreturned
        have hfound : searched.1 = walk.found ++ item.found decode query := by
          rw [hspec.1, take_of_length_le hlength]
        have hfoundLength : searched.1.length = walk.found.length + (item.found decode query).length := by
          rw [hfound, length_append]
        obtain ⟨final, returned, hvisit, hvisited⟩ := @ih { walk with
          filesVisited := walk.filesVisited + 1
          reads := walk.reads ++ [item.path]
          found := searched.1 } (by rw [hfound]; exact hlength) (htail (by rw [hone]; exact hfoundLength))
        refine ⟨final, returned, ?_, ?_, ?_, fun h => ?_, fun h => ?_, fun h => ?_, fun h => ?_⟩
        · rw [hstep]
          simpa only [hreturned, Bool.false_eq_true, if_false] using hvisit
        · rw [hvisited.found_eq, hfound, htried, foundIn_cons, append_assoc]
        · rw [hvisited.reads_eq, hupTo, hfiles, hfoundLength, map_cons, append_assoc, singleton_append]
        · rw [htried, foundIn_cons, ← append_assoc, ← hfound]
          exact hvisited.full h
        · rw [htried, foundIn_cons, ← append_assoc, ← hfound]
          exact hvisited.room h
        · rw [hvisited.visited h, htried, length_cons]
          change walk.filesVisited + 1 + _ = _
          omega
        · rw [hentered]
          exact hvisited.dirs h
    · -- reading a directory fails, and counts as a file
      have hfoundItem : item.found decode query = [] := by rw [Item.found, if_neg hfile]
      have hfiles : ∀ items, filesAmong (item :: items) = filesAmong items := fun items => filter_cons_of_neg hfile
      obtain ⟨final, returned, hvisit, hvisited⟩ :=
        @ih { walk with filesVisited := walk.filesVisited + 1 } hroom (htail (by rw [hone, hfoundItem]; rfl))
      refine ⟨final, returned, ?_, ?_, ?_, ?_, ?_, fun h => ?_, ?_⟩
      · rw [visitEntries_tried decode query hitem hless htry, if_neg hfile, hvisit]
      · rw [htried, foundIn_cons, hfoundItem, nil_append, hvisited.found_eq]
      · rw [hupTo, hfoundItem, length_nil, Nat.add_zero, hfiles, hvisited.reads_eq]
      · rw [htried, foundIn_cons, hfoundItem, nil_append]
        exact hvisited.full
      · rw [htried, foundIn_cons, hfoundItem, nil_append]
        exact hvisited.room
      · rw [hvisited.visited h, htried, length_cons]
        change walk.filesVisited + 1 + _ = _
        omega
      · rw [hentered]
        exact hvisited.dirs

/-! ### Files -/

lemma found_of_not_isFile {item : Item} (h : item.node.isFile = false) : item.found decode query = [] := by
  rw [Item.found, h]
  rfl

lemma foundIn_filesAmong (items : List Item) : foundIn decode query (filesAmong items) = foundIn decode query items := by
  induction items with
  | nil => rfl
  | cons item items ih =>
    rw [filesAmong, filter_cons]
    split_ifs with hfile
    · exact congrArg (item.found decode query ++ ·) ih
    · rw [foundIn_cons, found_of_not_isFile decode query (by simpa using hfile), nil_append]
      exact ih

lemma filesAmong_upTo (room : ℕ) (items : List Item) :
    filesAmong (upTo decode query room items) = upTo decode query room (filesAmong items) := by
  induction items generalizing room with
  | nil => rfl
  | cons item items ih =>
    by_cases hroom : room = 0
    · subst hroom
      simp [filesAmong]
    · rw [upTo, if_neg hroom, filesAmong, filesAmong, filter_cons, filter_cons]
      split_ifs with hfile
      · rw [upTo, if_neg hroom]
        exact congrArg _ (ih _)
      · rw [found_of_not_isFile decode query (by simpa using hfile), length_nil, Nat.sub_zero]
        exact ih room

lemma length_upTo_le_iff (room n : ℕ) (items : List Item) : (upTo decode query room items).length ≤ n ↔
    items.length ≤ n ∨ room ≤ (foundIn decode query (items.take n)).length := by
  induction items generalizing room n with
  | nil => simp [upTo]
  | cons item items ih =>
    by_cases hroom : room = 0
    · simp [hroom]
    · cases n with
      | zero => simp [upTo, hroom]
      | succ n =>
        rw [upTo, if_neg hroom, length_cons, length_cons, take_succ_cons, foundIn_cons, length_append,
          Nat.add_le_add_iff_right, Nat.add_le_add_iff_right, ih, Nat.sub_le_iff_le_add']

/-! ### The queue -/

/-- What is tried in some directories, one after the other, when a directory is begun while fewer than
10 000 files were counted. -/
def counted : ℕ → List Item → List Item
  | _, [] => []
  | visited, dir :: dirs =>
    if maxSearchFiles ≤ visited then [] else dir.tries ++ counted (visited + dir.tries.length) dirs

lemma counted_isPrefix (visited : ℕ) (dirs : List Item) : counted visited dirs <+: dirs.flatMap Item.tries := by
  induction dirs generalizing visited with
  | nil => exact prefix_rfl
  | cons dir dirs ih =>
    unfold counted
    split_ifs
    · exact nil_prefix
    · rw [flatMap_cons]
      exact (prefix_append_right_inj _).mpr (ih _)

/-- A transport lists a directory, perhaps with entries that are never walked. -/
def Lists (transport : Transport) (describe : Item → FileMetadata) (dir : Item) : Prop :=
  (transport.listDirectory dir.path = .error .remotePath ∧ dir.children = []) ∨
    ∃ skipped, transport.listDirectory dir.path = .ok (skipped ++ dir.children.map describe) ∧
      ∀ entry ∈ skipped, entry.isSymlink = false ∧ (entry.path = dir.path ∨ name entry.path = "..")

/-- A transport presents some directories as long as a search walks them, which has counted and found so many. -/
def PresentsAll (transport : Transport) (describe : Item → FileMetadata) (visited found : ℕ) (dirs : List Item) : Prop :=
  ∀ before dir after, dirs = before ++ dir :: after →
    visited + (before.flatMap Item.tries).length < maxSearchFiles →
    found + (foundIn decode query (before.flatMap Item.tries)).length ≤ maxSearchMatches →
    Lists transport describe dir ∧ ∀ earlier item later, dir.children = earlier ++ item :: later →
      found + (foundIn decode query (before.flatMap Item.tries)).length +
        (foundIn decode query (triedAmong earlier)).length < maxSearchMatches →
      Presents transport describe dir.path item

lemma PresentsAll.tail {visited found : ℕ} {dir : Item} {dirs : List Item}
    (h : PresentsAll decode query transport describe visited found (dir :: dirs)) :
    PresentsAll decode query transport describe (visited + dir.tries.length)
      (found + (foundIn decode query dir.tries).length) dirs := by
  intro before dir' after hsplit hvisited hfound
  have hall := h (dir :: before) dir' after (by rw [hsplit]; rfl)
  simp only [flatMap_cons, length_append, foundIn_append, ← Nat.add_assoc] at hall
  exact hall hvisited hfound

lemma visitEntries_skipped {current : RemotePath} {skipped entries : List FileMetadata} {walk : Walk}
    (hroom : walk.found.length < maxSearchMatches)
    (h : ∀ entry ∈ skipped, entry.isSymlink = false ∧ (entry.path = current ∨ name entry.path = "..")) :
    visitEntries decode query transport current (skipped ++ entries) walk =
      visitEntries decode query transport current entries walk := by
  induction skipped with
  | nil => rfl
  | cons entry skipped ih =>
    obtain ⟨hlink, hskip⟩ := h entry mem_cons_self
    have hpassed : (decide (entry.path = current) || decide (name entry.path = "..")) = true := by
      simpa using hskip
    rw [cons_append, visitEntries, if_neg (not_le.mpr hroom), if_neg (by simp [hlink]), if_pos hpassed]
    exact ih fun entry' h' => h entry' (mem_cons_of_mem _ h')

lemma visited_full {walk : Walk} (h : walk.found.length = maxSearchMatches) (items : List Item) :
    Visited decode query walk items walk true := by
  refine ⟨?_, ?_, fun _ => ?_, nofun, nofun, nofun⟩
  · rw [← h, take_left]
  · simp [h, filesAmong]
  · rw [length_append]
    omega

lemma visit_listing {dir : Item} {skipped : List FileMetadata} {walk : Walk}
    (hroom : walk.found.length ≤ maxSearchMatches)
    (hskipped : ∀ entry ∈ skipped, entry.isSymlink = false ∧ (entry.path = dir.path ∨ name entry.path = ".."))
    (hpresents : ∀ earlier item later, dir.children = earlier ++ item :: later →
      walk.found.length + (foundIn decode query (triedAmong earlier)).length < maxSearchMatches →
      Presents transport describe dir.path item) :
    ∃ final returned,
      visitEntries decode query transport dir.path (skipped ++ dir.children.map describe) walk = .ok (final, returned) ∧
      Visited decode query walk dir.children final returned := by
  by_cases hless : walk.found.length < maxSearchMatches
  · rw [visitEntries_skipped decode query hless hskipped]
    exact visitEntries_spec decode query hroom hpresents
  · have hfull : walk.found.length = maxSearchMatches := le_antisymm hroom (not_lt.mp hless)
    cases skipped with
    | nil => exact visitEntries_spec decode query hroom hpresents
    | cons entry skipped =>
      refine ⟨walk, true, ?_, visited_full decode query hfull _⟩
      rw [cons_append, visitEntries, if_pos hfull.ge]

lemma searchFrom_spec {queue : List Item} {walk : Walk} (hdirs : walk.dirs = queue.map Item.path)
    (hroom : walk.found.length ≤ maxSearchMatches)
    (hpresents : PresentsAll decode query transport describe walk.filesVisited walk.found.length (directories.served queue)) :
    ∃ rounds final, searchFrom decode query transport rounds walk = some (.ok final) ∧
      final.found = (walk.found ++ foundIn decode query (counted walk.filesVisited (directories.served queue))).take
        maxSearchMatches ∧
      final.reads = walk.reads ++ (filesAmong (upTo decode query (maxSearchMatches - walk.found.length)
        (counted walk.filesVisited (directories.served queue)))).map Item.path := by
  induction hserved : directories.served queue generalizing queue walk with
  | nil =>
    have hqueue : queue = [] := by
      cases queue with
      | nil => rfl
      | cons dir queue =>
        rw [directories.served_cons] at hserved
        cases hserved
    refine ⟨1, walk, ?_, ?_, ?_⟩
    · simp [searchFrom, hdirs, hqueue]
    · simp [counted, take_of_length_le hroom]
    · simp [counted, upTo, filesAmong]
  | cons dir served ih =>
    cases queue with
    | nil =>
      rw [directories.served_nil] at hserved
      cases hserved
    | cons dir' queue =>
      rw [directories.served_cons] at hserved hpresents
      obtain ⟨rfl, hrest⟩ := cons.inj hserved
      rw [hrest] at hpresents
      by_cases hvisited : maxSearchFiles ≤ walk.filesVisited
      · refine ⟨1, walk, ?_, ?_, ?_⟩
        · simp [searchFrom, hdirs, hvisited]
        · simp [counted, hvisited, take_of_length_le hroom]
        · simp [counted, hvisited, upTo, filesAmong]
      rw [counted, if_neg hvisited]
      obtain ⟨hlists, hitems⟩ := hpresents [] dir' served rfl (by simpa using hvisited) (by simpa using hroom)
      have htail := PresentsAll.tail decode query hpresents
      rcases hlists with ⟨hlist, hchildren⟩ | ⟨skipped, hlist, hskipped⟩
      · -- a file that was taken for a directory
        have htries : dir'.tries = [] := by simp [Item.tries, hchildren, triedAmong]
        have hsubdirs : directories.children dir' = [] := by
          change enteredAmong dir'.children = []
          rw [hchildren]
          rfl
        rw [hsubdirs, append_nil] at hrest
        rw [htries] at htail
        obtain ⟨rounds, final, hsearch, hfound, hreads⟩ :=
          @ih queue { walk with dirs := queue.map Item.path } rfl hroom (by rw [hrest]; exact htail) hrest
        refine ⟨rounds + 1, final, ?_, ?_, ?_⟩
        · simp [searchFrom, hdirs, hvisited, hlist, hsearch]
        · rw [htries]
          exact hfound
        · rw [htries]
          exact hreads
      · obtain ⟨final, returned, hvisit, hspec⟩ := @visit_listing decode query transport describe dir'
          skipped { walk with dirs := queue.map Item.path } hroom hskipped (by simpa using hitems)
        cases returned with
        | true =>
          have hfull : maxSearchMatches ≤ (walk.found ++ foundIn decode query dir'.tries).length := hspec.full rfl
          refine ⟨1, final, ?_, ?_, ?_⟩
          · simp [searchFrom, hdirs, hvisited, hlist, hvisit]
          · rw [hspec.found_eq, foundIn_append, ← append_assoc, take_append_of_le_length hfull]
            rfl
          · have hzero : maxSearchMatches - walk.found.length - (foundIn decode query dir'.tries).length = 0 := by
              rw [length_append] at hfull
              omega
            rw [hspec.reads_eq, upTo_append, hzero, upTo_zero, append_nil]
            rfl
        | false =>
          have hlength : (walk.found ++ foundIn decode query dir'.tries).length ≤ maxSearchMatches := hspec.room rfl
          have hfound : final.found = walk.found ++ foundIn decode query dir'.tries := by
            rw [hspec.found_eq]
            exact take_of_length_le hlength
          have hcount : final.filesVisited = walk.filesVisited + dir'.tries.length := hspec.visited rfl
          have hnext : final.dirs = (queue ++ directories.children dir').map Item.path := by
            rw [hspec.dirs rfl, map_append]
            rfl
          have hfoundLength : final.found.length = walk.found.length + (foundIn decode query dir'.tries).length := by
            rw [hfound, length_append]
          rw [← hcount, ← hfoundLength] at htail
          obtain ⟨rounds, last, hsearch, hlast, hreads⟩ := ih hnext (by rw [hfound]; exact hlength)
            (by rw [hrest]; exact htail) hrest
          refine ⟨rounds + 1, last, ?_, ?_, ?_⟩
          · simp [searchFrom, hdirs, hvisited, hlist, hvisit, hsearch]
          · rw [hlast, hfound, hcount, foundIn_append, append_assoc]
          · have hfiles := hspec.reads_eq
            rw [hreads, hfiles, upTo_append, filesAmong_append, map_append, ← append_assoc, hcount, hfoundLength,
              Nat.sub_sub]
            rfl

lemma searchFrom_succ {rounds : ℕ} {walk : Walk} {result : Except FileError Walk}
    (h : searchFrom decode query transport rounds walk = some result) :
    searchFrom decode query transport (rounds + 1) walk = some result := by
  induction rounds generalizing walk with
  | zero => cases h
  | succ rounds ih =>
    rw [searchFrom] at h ⊢
    split
    · next hdirs => simpa [hdirs] using h
    · next current dirs hdirs =>
      simp only [hdirs] at h
      split
      · next hvisited => simpa [hvisited] using h
      · next hvisited =>
        rw [if_neg hvisited] at h
        split
        · next hlist =>
          simp only [hlist] at h
          exact ih h
        · next e hother hlist =>
          simp only [hlist] at h
          exact h
        · next entries hlist =>
          simp only [hlist] at h
          split
          · next e hvisit =>
            simp only [hvisit] at h
            exact h
          · next walk' hvisit =>
            simp only [hvisit] at h
            exact h
          · next walk' hvisit =>
            simp only [hvisit] at h
            exact ih h

lemma searchFrom_unique {rounds rounds' : ℕ} {walk : Walk} {result result' : Except FileError Walk}
    (h : searchFrom decode query transport rounds walk = some result)
    (h' : searchFrom decode query transport rounds' walk = some result') : result = result' := by
  have hmore : ∀ {rounds : ℕ} {result : Except FileError Walk},
      searchFrom decode query transport rounds walk = some result → ∀ n, searchFrom decode query transport (rounds + n) walk = some result := by
    intro rounds result h n
    induction n with
    | zero => exact h
    | succ n ih => exact searchFrom_succ decode query ih
  have hsum := hmore h rounds'
  rw [Nat.add_comm, hmore h' rounds] at hsum
  exact (Option.some.inj hsum).symm

end
end IncidentLens.RemoteOps.Files
