import IncidentLens.Data.Joined
import IncidentLens.RemoteOps.Search

/-!
# The same tree on a host and in a container

A host presents every tree as it is. A container presents it as long as the directories that are listed print
plain names, and the entries that are looked at are told apart by their sizes.
-/
namespace IncidentLens.RemoteOps.Files
open Data Logs Investigations Investigations.Discovery RemotePath Node Item
open List hiding lookup

/-! ### Paths -/

variable {part : String} {path : RemotePath}

lemma parts_of_fileName (h : FileName part) : (purePosixPath part).parts = [part] := by
  have hsplit : part.toList.splitOn '/' = [part.toList] := @splitOn_joined _ '/' _ _ [] _ nofun h.2.2.2
  simp [purePosixPath, hsplit, h.1, h.2.1]

lemma child_parts (h : FileName part) : (child path part).parts = path.parts ++ [part] := by
  rw [child, parts_of_fileName h]

lemma name_child (h : FileName part) : name (child path part) = part := by simp [name, child_parts h]

lemma child_ne (h : FileName part) : child path part ≠ path := by
  intro heq
  have hlength := congrArg (fun p : RemotePath => p.parts.length) heq
  simp [child_parts h] at hlength

lemma Node.lookup_append (node : Node) (parts parts' : List String) :
    node.lookup (parts ++ parts') = (node.lookup parts).bind fun inner => inner.lookup parts' := by
  induction parts generalizing node with
  | nil => rfl
  | cons part parts ih =>
    rw [cons_append, lookup, lookup]
    cases node.entries.lookup part with
    | none => rfl
    | some child => exact ih child

lemma lookup_of_mem {entries : List (String × Node)} {entry : String × Node} (hnodup : (entries.map Prod.fst).Nodup)
    (h : entry ∈ entries) : entries.lookup entry.1 = some entry.2 := by
  induction entries with
  | nil => cases h
  | cons entry' entries ih =>
    rw [map_cons, nodup_cons] at hnodup
    rcases mem_cons.mp h with rfl | h
    · rw [lookup_cons_self]
    · have hne : (entry.1 == entry'.1) = false := by
        refine beq_eq_false_iff_ne.mpr fun heq => hnodup.1 ?_
        exact heq ▸ mem_map_of_mem h
      rw [lookup_cons, hne]
      exact ih hnodup.2 h

namespace Tree
variable {tree : Tree}

/-- An item that is in the tree, at a path of file names. -/
structure Holds (tree : Tree) (item : Item) : Prop where
  node_eq : tree.node? item.path = some item.node
  plain : ∀ part ∈ item.path.parts, FileName part

def top (tree : Tree) : Item := ⟨tree.start, tree.root⟩

lemma holds_top : tree.Holds tree.top := by
  refine ⟨?_, tree.plain⟩
  simp [node?, top, lookup]

variable {item : Item} {entry : String × Node} {rest : List Char} {path : RemotePath} {part : String}

lemma Holds.root_eq (h : tree.Holds item) : item.path.root = tree.start.root := by
  have hnode := h.node_eq
  unfold node? at hnode
  split_ifs at hnode with hbelow
  exact hbelow.1

lemma Holds.lookup_eq (h : tree.Holds item) :
    ∃ parts, item.path.parts = tree.start.parts ++ parts ∧ tree.root.lookup parts = some item.node := by
  have hnode := h.node_eq
  unfold node? at hnode
  split_ifs at hnode with hbelow
  obtain ⟨parts, hparts⟩ := hbelow.2
  refine ⟨parts, hparts.symm, ?_⟩
  rwa [← hparts, drop_left] at hnode

lemma Holds.fileName (h : tree.Holds item) (hentry : entry ∈ item.node.entries) : FileName entry.1 := by
  obtain ⟨parts, -, hlookup⟩ := h.lookup_eq
  exact tree.named parts item.node hlookup entry hentry

lemma Holds.child (h : tree.Holds item) {child : Item} (hchild : child ∈ item.children) : tree.Holds child := by
  obtain ⟨entry, hentry, rfl⟩ := mem_map.mp hchild
  obtain ⟨parts, hparts, hlookup⟩ := h.lookup_eq
  have hname := h.fileName hentry
  have hfound := lookup_of_mem (tree.nodup parts item.node hlookup) hentry
  refine ⟨?_, ?_⟩
  · have hroot : (RemotePath.child item.path entry.1).root = tree.start.root := h.root_eq
    have hpath : (RemotePath.child item.path entry.1).parts = tree.start.parts ++ (parts ++ [entry.1]) := by
      rw [child_parts hname, hparts, append_assoc]
    have hinner : tree.root.lookup (parts ++ [entry.1]) = some entry.2 := by
      rw [lookup_append, hlookup]
      simp [lookup, hfound]
    simp [node?, hroot, hpath, hinner]
  · intro part hpart
    rw [child_parts hname] at hpart
    rcases mem_append.mp hpart with hpart | hpart
    · exact h.plain part hpart
    · exact mem_singleton.mp hpart ▸ hname

lemma holds_of_served {queue : List Item} (h : ∀ item ∈ queue, tree.Holds item) :
    ∀ item ∈ directories.served queue, tree.Holds item :=
  directories.served_forall h fun _ hitem _ hchild => hitem.child (mem_of_mem_filter hchild)

/-! ### The host -/

lemma and_typeBits {low : ℕ} (h : low < 2 ^ 12) (high : ℕ) :
    (2 ^ 12 * high + low) &&& 0o170000 = 2 ^ 12 * (high &&& 15) := by
  refine Nat.eq_of_testBit_eq fun i => ?_
  have hmask := Nat.testBit_two_pow_mul_add 15 (Nat.two_pow_pos 12) i
  have hword := Nat.testBit_two_pow_mul_add high h i
  have hand := Nat.testBit_two_pow_mul_add (high &&& 15) (Nat.two_pow_pos 12) i
  rw [Nat.add_zero] at hmask hand
  rw [Nat.testBit_and, hword, hand, show (0o170000 : ℕ) = 2 ^ 12 * 15 from rfl, hmask]
  by_cases hi : i < 12 <;> simp [hi]

lemma perm_typeBits (perm : Fin 4096) : perm.val &&& 0o170000 = 0 ∧ (perm.val + 0o100000) &&& 0o170000 = 0o100000 ∧
    (perm.val + 0o040000) &&& 0o170000 = 0o040000 := by
  have hnone := and_typeBits perm.isLt 0
  have hfile := and_typeBits perm.isLt 8
  have hdir := and_typeBits perm.isLt 4
  rw [Nat.mul_zero, Nat.zero_add] at hnone
  rw [Nat.add_comm] at hfile hdir
  exact ⟨hnone, hfile, hdir⟩

lemma presents_host {item child : Item} {dots : Bool} (hitem : tree.Holds item) (hchild : child ∈ item.children) :
    Presents (tree.host dots) (fun item => hostMetadata item.path item.node) item.path child := by
  have hholds := hitem.child hchild
  obtain ⟨entry, hentry, rfl⟩ := mem_map.mp hchild
  have hname := hitem.fileName hentry
  refine ⟨rfl, rfl, ⟨child_ne hname, ?_⟩, ?_, ?_⟩
  · rw [name_child hname]
    exact hname.2.2.1
  · intro hlink
    have hbits := perm_typeBits entry.2.attributes.perm
    simp only [isDirectoryEntry, hostMetadata]
    cases hnode : entry.2 with
    | link attributes => simp [hnode, Node.isLink] at hlink
    | file attributes content =>
      simp only [hnode, Node.attributes] at hbits
      cases htyped : attributes.typed <;> simp [Node.attributes, Node.typeBits, Node.entered, htyped, hbits]
    | dir attributes entries =>
      simp only [hnode, Node.attributes] at hbits
      cases htyped : attributes.typed <;> simp [Node.attributes, Node.typeBits, Node.entered, htyped, hbits]
  · intro _
    have hnode := hholds.node_eq
    simp only at hnode
    simp only [host, hnode, answer]
    cases entry.2 <;> rfl

lemma lists_host {dots : Bool} (hitem : tree.Holds item) :
    Lists (tree.host dots) (fun item => hostMetadata item.path item.node) item := by
  have hnode := hitem.node_eq
  cases hkind : item.node with
  | file attributes content =>
    left
    simp [host, hnode, hkind, children, Node.entries]
  | link attributes =>
    left
    simp [host, hnode, hkind, children, Node.entries]
  | dir attributes entries =>
    right
    refine ⟨if dots then [hostMetadata (child item.path ".") (.dir attributes entries),
      hostMetadata (child item.path "..") (.dir attributes [])] else [], ?_, ?_⟩
    · simp [host, hnode, hkind, children, Node.entries]
    · intro entry hentry
      cases dots with
      | false => cases hentry
      | true =>
        rcases mem_pair.mp hentry with rfl | rfl
        · refine ⟨rfl, Or.inl ?_⟩
          have hdot : (purePosixPath ".").parts = [] := by decide +kernel
          simp [hostMetadata, child, hdot]
        · refine ⟨rfl, Or.inr ?_⟩
          have hdots : (purePosixPath "..").parts = [".."] := by decide +kernel
          simp [hostMetadata, child, name, hdots]

/-! ### The container -/

/-- The path of an entry is printed without a bar or a break. -/
def Printable (path : RemotePath) (entry : String × Node) : Prop :=
  ∀ c ∈ entryText path entry.1, c ≠ '|' ∧ isLineBreak c = false

/-- The size of a node tells what it is as well as the host's report does. -/
def Sized : Node → Prop
  | .file attributes _ => attributes.typed = true → attributes.size ≠ 0
  | .dir attributes _ => attributes.size = 0
  | .link _ => True

/-- What `list_directory` makes of a node. -/
def containerMetadata (item : Item) : FileMetadata where
  path := item.path
  size := item.node.attributes.size
  mode := item.node.attributes.perm.val
  isSymlink := item.node.isLink

lemma digit_plain {c : Char} (h : c.isDigit = true) : c ≠ '|' ∧ isLineBreak c = false := by
  have hrange : 48 ≤ c.toNat ∧ c.toNat ≤ 57 := by simpa [Char.isDigit, UInt32.le_iff_toNat_le] using h
  constructor
  · rintro rfl
    exact absurd hrange (by decide)
  · simp only [isLineBreak, Bool.or_eq_false_iff, Bool.and_eq_false_iff, decide_eq_false_iff_not]
    omega

lemma toDigits_plain {base n : ℕ} (hpos : 0 < base) (hle : base ≤ 10) :
    ∀ c ∈ Nat.toDigits base n, c ≠ '|' ∧ isLineBreak c = false :=
  fun _ hc => digit_plain (Nat.isDigit_of_mem_toDigits hpos hle hc)

lemma timeText_plain (ns : ℕ) : ∀ c ∈ timeText ns, c ≠ '|' ∧ isLineBreak c = false := by
  intro c hc
  simp only [timeText, leftpad, mem_append, mem_cons, mem_replicate, not_mem_nil, or_false] at hc
  rcases hc with (hc | rfl | ⟨-, rfl⟩ | hc) | rfl
  · exact toDigits_plain (by decide) (by decide) c hc
  · decide
  · decide
  · exact toDigits_plain (by decide) (by decide) c hc
  · decide

lemma octal_of_mem_toDigits (n : ℕ) : ∀ c ∈ Nat.toDigits 8 n, ('0' ≤ c && c ≤ '7') = true := by
  have hdigit : ∀ d < 8, ∀ c ∈ Nat.toDigits 8 d, ('0' ≤ c && c ≤ '7') = true := by
    intro d hd c hc
    rw [Nat.toDigits_of_lt_base hd, mem_singleton] at hc
    subst hc
    interval_cases d <;> rfl
  induction n using Nat.strong_induction_on with
  | _ n ih =>
    by_cases hlt : n < 8
    · exact hdigit n hlt
    · have hsplit : Nat.toDigits 8 n = Nat.toDigits 8 (n / 8) ++ Nat.toDigits 8 (n % 8) := by
        rw [Nat.toDigits_append_toDigits (by decide) (by omega) (Nat.mod_lt n (by decide)), Nat.div_add_mod]
      intro c hc
      rw [hsplit] at hc
      rcases mem_append.mp hc with hc | hc
      · exact ih (n / 8) (by omega) c hc
      · exact hdigit (n % 8) (Nat.mod_lt n (by decide)) c hc

lemma parseOctal?_toDigits (n : ℕ) : parseOctal? (Nat.toDigits 8 n) = some n := by
  rw [parseOctal?, if_pos ⟨Nat.toDigits_ne_nil, all_eq_true.mpr (octal_of_mem_toDigits n)⟩,
    Nat.ofDigitChars_toDigits (by decide) (by decide)]

lemma fields_plain (node : Node) :
    ∀ field ∈ [[node.typeLetter], Nat.toDigits 10 node.attributes.size, Nat.toDigits 8 node.attributes.perm.val,
      Nat.toDigits 10 node.attributes.uid, Nat.toDigits 10 node.attributes.gid, timeText node.attributes.modifiedNs],
    ∀ c ∈ field, c ≠ '|' ∧ isLineBreak c = false := by
  intro field hfield
  simp only [mem_cons, not_mem_nil, or_false] at hfield
  rcases hfield with rfl | rfl | rfl | rfl | rfl | rfl
  · intro c hc
    rw [mem_singleton.mp hc]
    cases node <;> exact ⟨by simp [typeLetter], rfl⟩
  · exact toDigits_plain (by decide) (by decide)
  · exact toDigits_plain (by decide) (by decide)
  · exact toDigits_plain (by decide) (by decide)
  · exact toDigits_plain (by decide) (by decide)
  · exact timeText_plain _

lemma intercalate_concat (sep : Char) (parts : List (List Char)) (part : List Char) :
    [sep].intercalate (parts ++ [part]) = joined sep parts part := by
  induction parts with
  | nil => simp
  | cons first parts ih =>
    rw [cons_append, intercalate_cons_of_ne_nil (by simp), ih, joined_cons]
    simp

lemma mem_joined {sep c : Char} {parts : List (List Char)} (h : c ∈ joined sep parts rest) :
    c = sep ∨ (∃ part ∈ parts, c ∈ part) ∨ c ∈ rest := by
  induction parts with
  | nil => exact Or.inr (Or.inr h)
  | cons part parts ih =>
    rw [joined_cons, mem_append, mem_cons] at h
    rcases h with h | h | h
    · exact Or.inr (Or.inl ⟨part, mem_cons_self, h⟩)
    · exact Or.inl h
    · rcases ih h with h | ⟨part', hpart', h⟩ | h
      · exact Or.inl h
      · exact Or.inr (Or.inl ⟨part', mem_cons_of_mem _ hpart', h⟩)
      · exact Or.inr (Or.inr h)

lemma entryText_eq {slashes : List Char}
    (hstr : path.str.toList = slashes ++ ['/'].intercalate (path.parts.map String.toList))
    (hslashes : slashes.getLast? = some '/') (hplain : ∀ p ∈ path.parts, FileName p) :
    entryText path part = slashes ++ joined '/' (path.parts.map String.toList) part.toList := by
  rcases eq_nil_or_concat path.parts with hnil | ⟨init, last, hlast⟩
  · rw [hnil, map_nil, intercalate_nil, append_nil] at hstr
    simp [entryText, hstr, hslashes, hnil]
  · have hname : FileName last := hplain last (by simp [hlast])
    have hne : last.toList ≠ [] := by simpa [String.toList_eq_nil_iff] using hname.1
    rw [hlast, concat_eq_append, map_append, map_cons, map_nil, intercalate_concat] at hstr
    have hend : path.str.toList.getLast? ≠ some '/' := by
      rw [hstr, getLast?_append, getLast?_joined _ hne, getLast?_eq_some_getLast hne, Option.some_or]
      exact fun h => hname.2.2.2 (Option.some.inj h ▸ getLast_mem hne)
    rw [entryText, if_neg hend, hstr, hlast, concat_eq_append, map_append, map_cons, map_nil, joined_concat]
    simp

lemma parts_of_slashed {parts : List String} (hplain : ∀ p ∈ parts, FileName p) (hpart : FileName part) :
    (((joined '/' (parts.map String.toList) part.toList).splitOn '/').map String.ofList).filter
      (fun p => p ≠ "" ∧ p ≠ ".") = parts ++ [part] := by
  have hparts : ∀ p ∈ parts.map String.toList, '/' ∉ p := by
    intro p hp
    obtain ⟨q, hq, rfl⟩ := mem_map.mp hp
    exact (hplain q hq).2.2.2
  have hall : ∀ p ∈ parts ++ [part], decide (p ≠ "" ∧ p ≠ ".") = true := by
    intro p hp
    have hname : FileName p := by
      rcases mem_append.mp hp with hp | hp
      · exact hplain p hp
      · exact mem_singleton.mp hp ▸ hpart
    exact decide_eq_true ⟨hname.1, hname.2.1⟩
  rw [splitOn_joined hparts hpart.2.2.2, map_append, map_map, map_cons, map_nil, String.ofList_toList]
  have hback : parts.map (String.ofList ∘ String.toList) = parts := by
    simp [Function.comp_def, String.ofList_toList]
  rw [hback]
  exact filter_eq_self.mpr hall

lemma splitOn_slash (text : List Char) : ('/' :: text).splitOn '/' = [] :: text.splitOn '/' := by
  rw [splitOn, splitOn]
  exact splitOnP_append_cons_of_forall_mem (forall_mem_nil _) '/' (by decide) text

lemma root_of_slash {first : Char} (h : first ≠ '/') :
    (purePosixPath (String.ofList ('/' :: first :: rest))).root = some .single := by
  simp only [purePosixPath, String.toList_ofList]
  split
  · rfl
  · next heq => exact absurd (cons.inj (cons.inj heq).2).1 h
  · rfl
  · next hnone => exact absurd rfl (hnone _)

lemma root_of_slashes {first : Char} (h : first ≠ '/') :
    (purePosixPath (String.ofList ('/' :: '/' :: first :: rest))).root = some .double := by
  simp only [purePosixPath, String.toList_ofList]
  split
  · next heq => exact absurd (cons.inj (cons.inj (cons.inj heq).2).2).1 h
  · rfl
  · next hdouble heq => exact (hdouble _ (cons.inj heq).2.symm).elim
  · next hnone => exact absurd rfl (hnone _)

lemma exists_first {parts : List String} (hplain : ∀ p ∈ parts, FileName p) (hpart : FileName part) :
    ∃ first rest, joined '/' (parts.map String.toList) part.toList = first :: rest ∧ first ≠ '/' := by
  have hhead : ∀ p, FileName p → ∃ first rest, p.toList = first :: rest ∧ first ≠ '/' := by
    intro p hp
    obtain ⟨first, rest, hp'⟩ := exists_cons_of_ne_nil (l := p.toList) (by simpa using hp.1)
    exact ⟨first, rest, hp', fun h => hp.2.2.2 (by rw [hp', h]; exact mem_cons_self)⟩
  cases parts with
  | nil => exact hhead part hpart
  | cons p parts =>
    obtain ⟨first, rest, hp, hslash⟩ := hhead p (hplain p mem_cons_self)
    refine ⟨first, rest ++ '/' :: joined '/' (parts.map String.toList) part.toList, ?_, hslash⟩
    rw [map_cons, joined_cons, hp, cons_append]

lemma purePosixPath_entryText (habsolute : path.root ≠ none)
    (hplain : ∀ p ∈ path.parts, FileName p) (hpart : FileName part) :
    purePosixPath (String.ofList (entryText path part)) = child path part := by
  obtain ⟨first, rest, hfirst, hslash⟩ := exists_first hplain hpart
  have hparts := parts_of_slashed hplain hpart
  rw [hfirst] at hparts
  have hchild : child path part = ⟨path.root, path.parts ++ [part]⟩ := by rw [child, parts_of_fileName hpart]
  rw [hchild]
  cases hroot : path.root with
  | none => exact absurd hroot habsolute
  | some root =>
    cases root with
    | single =>
      have htext := @entryText_eq path part ['/']
        (by simp [str, hroot, String.toList_intercalate]) rfl hplain
      rw [htext, hfirst]
      have hsplit := splitOn_slash (first :: rest)
      refine congrArg₂ RemotePath.mk (root_of_slash hslash) ?_
      simp only [String.toList_ofList, singleton_append, hsplit, map_cons]
      rw [filter_cons_of_neg (by decide)]
      exact hparts
    | double =>
      have htext := @entryText_eq path part ['/', '/']
        (by simp [str, hroot, String.toList_intercalate]) rfl hplain
      rw [htext, hfirst]
      have hsplit := splitOn_slash (first :: rest)
      have hsplit' := splitOn_slash ('/' :: first :: rest)
      refine congrArg₂ RemotePath.mk (root_of_slashes hslash) ?_
      simp only [String.toList_ofList, cons_append, nil_append, hsplit', hsplit, map_cons]
      rw [filter_cons_of_neg (by decide), filter_cons_of_neg (by decide)]
      exact hparts

lemma parseEntry_findLine (habsolute : path.root ≠ none)
    (hplain : ∀ p ∈ path.parts, FileName p) (hname : FileName entry.1) (hprintable : Printable path entry) :
    parseEntry (findLine path entry) = .ok (containerMetadata ⟨child path entry.1, entry.2⟩) := by
  have hsplit : (findLine path entry).splitOn '|' = [entryText path entry.1, [entry.2.typeLetter],
      Nat.toDigits 10 entry.2.attributes.size, Nat.toDigits 8 entry.2.attributes.perm.val,
      Nat.toDigits 10 entry.2.attributes.uid, Nat.toDigits 10 entry.2.attributes.gid,
      timeText entry.2.attributes.modifiedNs] := by
    refine splitOn_intercalate '|' ?_ (by simp)
    intro field hfield hbar
    rcases mem_cons.mp hfield with rfl | hfield
    · exact (hprintable '|' hbar).1 rfl
    · exact (fields_plain entry.2 field hfield '|' hbar).1 rfl
  have hlink : decide ([entry.2.typeLetter] = ['l']) = entry.2.isLink := by cases entry.2 <;> rfl
  rw [parseEntry, hsplit]
  simp only [parseInt?_toDigits, parseOctal?_toDigits, hlink, purePosixPath_entryText habsolute hplain hname]
  rfl

lemma findLine_unbroken (hprintable : Printable path entry) : ∀ c ∈ findLine path entry, isLineBreak c = false := by
  intro c hc
  rw [findLine] at hc
  rcases mem_joined (intercalate_concat '|' [_, _, _, _, _, _] _ ▸ hc) with rfl | ⟨field, hfield, hc⟩ | hc
  · rfl
  · rcases mem_cons.mp hfield with rfl | hfield
    · exact (hprintable c hc).2
    · exact (fields_plain entry.2 field (mem_append_left [_] hfield) c hc).2
  · exact (timeText_plain _ c hc).2

lemma parseEntries_find {entries : List (String × Node)} (habsolute : path.root ≠ none)
    (hplain : ∀ p ∈ path.parts, FileName p) (hnames : ∀ entry ∈ entries, FileName entry.1)
    (hprintable : ∀ entry ∈ entries, Printable path entry) :
    parseEntries (bareLines isLineBreak (entries.flatMap fun entry => findLine path entry ++ ['\n'])) =
      .ok (entries.map fun entry => containerMetadata ⟨child path entry.1, entry.2⟩) := by
  induction entries with
  | nil => rfl
  | cons entry entries ih =>
    have hline := parseEntry_findLine habsolute hplain (hnames entry mem_cons_self) (hprintable entry mem_cons_self)
    have htail := ih (fun e he => hnames e (mem_cons_of_mem _ he)) fun e he => hprintable e (mem_cons_of_mem _ he)
    rw [flatMap_cons, append_assoc, singleton_append,
      bareLines_append_break (findLine_unbroken (hprintable entry mem_cons_self)) (by decide) (by decide),
      parseEntries, hline, htail]
    rfl

lemma lists_container (hitem : tree.Holds item)
    (hprintable : ∀ entry ∈ item.node.entries, Printable item.path entry) :
    Lists (containerFileBackend tree.container) containerMetadata item := by
  have habsolute : item.path.root ≠ none := hitem.root_eq ▸ tree.absolute
  have hparse := parseEntries_find habsolute hitem.plain (fun entry hentry => hitem.fileName hentry) hprintable
  right
  refine ⟨[], ?_, nofun⟩
  simp only [containerFileBackend, container, hitem.node_eq, Option.map_some, hparse, nil_append, children, map_map]
  rfl

lemma presents_container {item child : Item} (hitem : tree.Holds item) (hchild : child ∈ item.children)
    (hsized : Sized child.node) :
    Presents (containerFileBackend tree.container) containerMetadata item.path child := by
  have hholds := hitem.child hchild
  obtain ⟨entry, hentry, rfl⟩ := mem_map.mp hchild
  have hname := hitem.fileName hentry
  refine ⟨rfl, rfl, ⟨child_ne hname, ?_⟩, ?_, ?_⟩
  · rw [name_child hname]
    exact hname.2.2.1
  · intro hlink
    have hbits := (perm_typeBits entry.2.attributes.perm).1
    simp only [isDirectoryEntry, containerMetadata, hbits, ne_eq, not_true_eq_false, if_false]
    cases hnode : entry.2 with
    | link attributes => simp [hnode, Node.isLink] at hlink
    | file attributes content =>
      simp only [hnode, Sized] at hsized
      cases htyped : attributes.typed <;> simp [Node.attributes, Node.entered, htyped]
      exact hsized htyped
    | dir attributes entries =>
      simp only [hnode, Sized] at hsized
      simp [Node.attributes, Node.entered, hsized]
  · intro htried
    have hnode := hholds.node_eq
    simp only at hnode hsized htried
    simp only [containerFileBackend, container, hnode, answer]
    cases hkind : entry.2 with
    | file attributes content => rfl
    | dir attributes entries => simp_all [Sized, Node.tried, Node.entered]
    | link attributes => simp_all [Node.tried, Node.isLink]

/-! ### Searching the tree -/

/-- The directories of the tree, level after level. -/
noncomputable def order (tree : Tree) : List Item := directories.levels [tree.top]

/-- The files in the directories that are begun while fewer than 10 000 were counted. -/
noncomputable def files (tree : Tree) : List Item := filesAmong (counted 0 tree.order)

section
variable (decode : Bytes → List Char) (query : List Char) (tree : Tree)

def matchesAt (path : RemotePath) : List SearchMatch :=
  ((tree.node? path).map fun node => found decode query ⟨path, node⟩).getD []

def Finishes (transport : Transport) (walk : Walk) : Prop :=
  ∃ rounds, search decode query transport rounds tree.start = some (.ok walk)

/-- The files that were read are files of the tree, read in the order of the levels, and what was found are all
matching lines in them up to the limit. -/
structure Complete (walk : Walk) : Prop where
  confined : ∀ path ∈ walk.reads, ∃ node, tree.node? path = some node ∧ node.isFile = true
  ordered : walk.reads <+: (filesAmong (tree.order.flatMap Item.tries)).map Item.path
  complete : walk.found = (walk.reads.flatMap (matchesAt decode query tree)).take maxSearchMatches

/-- The search of the host is complete and within its bound, and that of the container finds the same. -/
def Searches (dots : Bool) : Prop :=
  ∃ walk, Finishes decode query tree (tree.host dots) walk ∧ Complete decode query tree walk ∧
    walk.reads.length ≤ maxSearchFiles ∧
    ∃ walk', Finishes decode query tree (containerFileBackend tree.container) walk' ∧ walk'.found = walk.found

/-- No directory that is begun takes the files beyond 10 000, unless the first 10 000 fill the matches. -/
def Bounded : Prop :=
  tree.files.length ≤ maxSearchFiles ∨ maxSearchMatches ≤ (foundIn decode query (tree.files.take maxSearchFiles)).length

/-- The directories that are listed have plain paths, and the entries that are looked at are told apart by their sizes. -/
def ContainerAlike : Prop :=
  ∀ before dir after, tree.order = before ++ dir :: after →
    (before.flatMap tries).length < maxSearchFiles →
    (foundIn decode query (before.flatMap tries)).length ≤ maxSearchMatches →
    (∀ entry ∈ dir.node.entries, Printable dir.path entry) ∧
      ∀ earlier item later, dir.children = earlier ++ item :: later →
        (foundIn decode query (before.flatMap tries)).length +
          (foundIn decode query (triedAmong earlier)).length < maxSearchMatches →
        Sized item.node

variable {decode query tree}

lemma served_top : directories.served [tree.top] = tree.order := directories.served_eq_levels _

lemma holds_of_order {before after : List Item} {dir : Item} (h : tree.order = before ++ dir :: after) :
    tree.Holds dir := by
  refine @holds_of_served tree [tree.top] (fun item hitem => ?_) dir ?_
  · rw [mem_singleton.mp hitem]
    exact holds_top
  · rw [served_top, h]
    exact mem_append_right _ mem_cons_self

lemma mem_children_of_split {dir item : Item} {earlier later : List Item} (h : dir.children = earlier ++ item :: later) :
    item ∈ dir.children := by
  rw [h]
  exact mem_append_right _ mem_cons_self

lemma search_spec {transport : Transport} {describe : Item → FileMetadata}
    (h : PresentsAll decode query transport describe 0 0 tree.order) :
    ∃ walk, Finishes decode query tree transport walk ∧
      walk.found = (foundIn decode query (counted 0 tree.order)).take maxSearchMatches ∧
      walk.reads = (filesAmong (upTo decode query maxSearchMatches (counted 0 tree.order))).map Item.path := by
  rw [← served_top] at h ⊢
  obtain ⟨rounds, walk, hsearch, hfound, hreads⟩ := @searchFrom_spec decode query transport describe [tree.top]
    { dirs := [tree.start] } rfl (Nat.zero_le _) h
  exact ⟨walk, ⟨rounds, hsearch⟩, hfound, hreads⟩

lemma presentsAll_host (dots : Bool) : PresentsAll decode query (tree.host dots)
    (fun item => hostMetadata item.path item.node) 0 0 tree.order := by
  intro before dir after hsplit _ _
  have hholds := holds_of_order hsplit
  exact ⟨lists_host hholds, fun earlier item later hchildren _ => presents_host hholds (mem_children_of_split hchildren)⟩

lemma presentsAll_container (h : ContainerAlike decode query tree) :
    PresentsAll decode query (containerFileBackend tree.container) containerMetadata 0 0 tree.order := by
  intro before dir after hsplit hvisited hfound
  rw [Nat.zero_add] at hvisited hfound
  have hholds := holds_of_order hsplit
  obtain ⟨hprintable, hsized⟩ := h before dir after hsplit hvisited hfound
  refine ⟨lists_container hholds hprintable, fun earlier item later hchildren hless => ?_⟩
  rw [Nat.zero_add] at hless
  exact presents_container hholds (mem_children_of_split hchildren) (hsized earlier item later hchildren hless)

lemma holds_of_tried {item : Item} (h : item ∈ tree.order.flatMap tries) : tree.Holds item := by
  obtain ⟨dir, hdir, htried⟩ := mem_flatMap.mp h
  obtain ⟨before, after, hsplit⟩ := append_of_mem hdir
  exact (holds_of_order hsplit).child (mem_of_mem_filter htried)

lemma host_searches (dots : Bool) : ∃ walk, Finishes decode query tree (tree.host dots) walk ∧
    Complete decode query tree walk ∧ (walk.reads.length ≤ maxSearchFiles ↔ Bounded decode query tree) ∧
    walk.found = (foundIn decode query (counted 0 tree.order)).take maxSearchMatches := by
  obtain ⟨walk, hfinishes, hfound, hreads⟩ := search_spec (@presentsAll_host decode query tree dots)
  have hstart : filesAmong (upTo decode query maxSearchMatches (counted 0 tree.order)) <+:
      filesAmong (tree.order.flatMap Item.tries) :=
    ((upTo_isPrefix decode query _ _).trans (counted_isPrefix 0 tree.order)).filter _
  have hholds : ∀ item ∈ filesAmong (upTo decode query maxSearchMatches (counted 0 tree.order)),
      tree.Holds item ∧ item.node.isFile = true := by
    intro item hitem
    obtain ⟨hmem, hfile⟩ := mem_filter.mp (hstart.subset hitem)
    exact ⟨holds_of_tried hmem, hfile⟩
  refine ⟨walk, hfinishes, ⟨?_, ?_, ?_⟩, ?_, hfound⟩
  · intro path hpath
    rw [hreads] at hpath
    obtain ⟨item, hitem, rfl⟩ := mem_map.mp hpath
    exact ⟨item.node, (hholds item hitem).1.node_eq, (hholds item hitem).2⟩
  · rw [hreads]
    exact hstart.map _
  · have hmatches : walk.reads.flatMap (matchesAt decode query tree) =
        foundIn decode query (upTo decode query maxSearchMatches (counted 0 tree.order)) := by
      rw [hreads, flatMap_map, ← foundIn_filesAmong, foundIn]
      refine flatMap_congr fun item hitem => ?_
      simp [matchesAt, (hholds item hitem).1.node_eq]
    rw [hmatches, take_foundIn_upTo, hfound]
  · rw [hreads, length_map, filesAmong_upTo, length_upTo_le_iff]
    rfl

end

/-- A search keeps what it promises only within its bound; there it does where the container shows the tree as the
host does. -/
theorem searches_of_alike (decode : Bytes → List Char) (query : List Char) (tree : Tree) (dots : Bool) :
    (Searches decode query tree dots → Bounded decode query tree) ∧
      (Bounded decode query tree → ContainerAlike decode query tree → Searches decode query tree dots) := by
  obtain ⟨walk, hfinishes, hcomplete, hbounded, hfound⟩ := @host_searches decode query tree dots
  constructor
  · rintro ⟨walk', ⟨rounds', hsearch'⟩, -, hbound, -⟩
    obtain ⟨rounds, hsearch⟩ := hfinishes
    obtain rfl := Except.ok.inj (searchFrom_unique decode query hsearch hsearch')
    exact hbounded.mp hbound
  · intro hbound halike
    obtain ⟨walk', hfinishes', hfound', -⟩ := search_spec (presentsAll_container halike)
    exact ⟨walk, hfinishes, hcomplete, hbounded.mpr hbound, walk', hfinishes', hfound'.trans hfound.symm⟩

/-! ### Two small trees -/

def reported (size : ℕ) : Attributes where
  perm := 0o755
  typed := true
  size := size
  uid := 0
  gid := 0
  modifiedNs := 1700000000000000000

lemma entries_of_lookup {name : String} {node inner : Node} {parts : List String} (hnode : node.entries = [])
    (h : lookup (.dir (reported 4096) [(name, node)]) parts = some inner) :
    inner.entries = [(name, node)] ∨ inner.entries = [] := by
  cases parts with
  | nil =>
    obtain rfl := Option.some.inj h
    exact Or.inl rfl
  | cons part parts =>
    right
    simp only [lookup, entries, lookup_cons, lookup_nil] at h
    cases hpart : part == name with
    | false => simp [hpart] at h
    | true =>
      simp only [hpart, Option.bind_some] at h
      cases parts with
      | nil =>
        obtain rfl := Option.some.inj h
        exact hnode
      | cons part' parts => simp [lookup, hnode] at h

/-- `/srv` with one entry that has none of its own. -/
def single (name : String) (node : Node) (hname : FileName name) (hnode : node.entries = []) : Tree where
  start := ⟨some .single, ["srv"]⟩
  absolute := by decide
  plain := by
    intro part hpart
    rw [mem_singleton.mp hpart]
    exact ⟨by decide, by decide, by decide, by decide +kernel⟩
  root := .dir (reported 4096) [(name, node)]
  isDir := ⟨rfl, rfl⟩
  nodup parts inner hinner := by
    rcases entries_of_lookup hnode hinner with h | h <;> simp [h]
  named parts inner hinner := by
    rcases entries_of_lookup hnode hinner with h | h <;> simp [h, hname]

def sampleDecode (bytes : Bytes) : List Char := bytes.map fun b => Char.ofNat b.toNat

/-- A log file of eleven bytes in `/srv`. -/
def oneFile : Tree := single "app.log" (.file (reported 11) (ascii "boom\nfine\n\n"))
  ⟨by decide, by decide, by decide, by decide +kernel⟩ rfl

lemma order_oneFile : oneFile.order = [oneFile.top] := by
  rw [order, Branching.levels, Branching.levels.eq_def]
  rfl

theorem oneFile_searched : Searches sampleDecode "boom".toList oneFile true := by
  refine (searches_of_alike sampleDecode "boom".toList oneFile true).2 ?_ ?_
  · left
    rw [files, order_oneFile]
    decide +kernel
  · intro before dir after hsplit _ _
    rw [order_oneFile] at hsplit
    obtain ⟨rfl, rfl, -⟩ : before = [] ∧ dir = oneFile.top ∧ after = [] := by
      cases before with
      | nil => simpa [eq_comm] using hsplit
      | cons first before => simp at hsplit
    constructor
    · intro entry hentry
      rw [mem_singleton.mp hentry]
      exact forall_iff_forall_mem.mp (by decide +kernel)
    · intro earlier item later hchildren _
      have hitem := mem_children_of_split hchildren
      rw [mem_singleton.mp hitem]
      intro _
      exact Nat.succ_ne_zero 10

/-- An empty directory, of which 4096 bytes are reported, in `/srv`. -/
def oneDirectory : Tree := single "logs" (.dir (reported 4096) [])
  ⟨by decide, by decide, by decide, by decide +kernel⟩ rfl

/-- In the container the directory is taken for a file, and `cat` fails. -/
theorem oneDirectory_raises : ¬ Searches sampleDecode "boom".toList oneDirectory false := by
  have hraises : search sampleDecode "boom".toList (containerFileBackend oneDirectory.container) 1 oneDirectory.start =
      some (.error (.containerFileOperationUnsupported "container operation failed")) := by
    decide +kernel
  rintro ⟨walk, -, -, -, walk', ⟨rounds, hfinishes⟩, -⟩
  cases searchFrom_unique _ _ hraises hfinishes

end Tree
end IncidentLens.RemoteOps.Files
