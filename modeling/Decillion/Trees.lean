import Decillion.ByteText
import Mathlib.Data.List.Sort
import Mathlib.Data.List.Lex
import Mathlib.Data.List.Dedup
import Mathlib.Data.List.Induction
import Mathlib.Data.String.Basic

/-!
Trees of files. A path leads to a directory, a file or a symbolic link, and what has a name
is in a directory. A link says where it leads: to nothing, to a directory or to a file.
Renaming moves everything below the old path. The names below a directory do not depend on
how the tree has been built once they are sorted.
-/
namespace Decillion.Trees

open ByteText

inductive Link where
  | missing
  | directory
  | file (content : Bytes)
deriving DecidableEq

inductive Node where
  | dir
  | file (content : Bytes)
  | link (target : Link)
deriving DecidableEq

/-- The content of a file or of the file that a link leads to. -/
def Node.content? : Node → Option Bytes
  | .dir => none
  | .file content => some content
  | .link (.file content) => some content
  | .link _ => none

/-- What can be the name of a file. -/
def Proper (name : String) : Prop :=
  name ≠ "" ∧ name ≠ "." ∧ name ≠ ".." ∧ '/' ∉ name.toList

instance (name : String) : Decidable (Proper name) := by unfold Proper; infer_instance

structure Tree where
  node : Path → Option Node
  names : List Path
  named : ∀ path, node path ≠ none → path ∈ names
  closed : ∀ path name, node (path ++ [name]) ≠ none → node path = some .dir
  proper : ∀ path name, node (path ++ [name]) ≠ none → Proper name

theorem Tree.dir_of_prefix (t : Tree) (dir rest : Path) (hrest : rest ≠ [])
    (h : t.node (dir ++ rest) ≠ none) : t.node dir = some .dir := by
  induction rest using List.reverseRecOn with
  | nil => exact absurd rfl hrest
  | append_singleton rest name ih =>
    rw [← List.append_assoc] at h
    have hparent := t.closed _ _ h
    by_cases hnil : rest = []
    · rwa [hnil, List.append_nil] at hparent
    · exact ih hnil (by simp [hparent])

theorem Tree.none_of_prefix (t : Tree) (dir rest : Path) (h : t.node dir = none) :
    t.node (dir ++ rest) = none := by
  by_contra hsome
  by_cases hnil : rest = []
  · rw [hnil, List.append_nil] at hsome
    exact hsome h
  · have hdir := t.dir_of_prefix dir rest hnil hsome
    rw [h] at hdir
    simp at hdir

theorem Tree.proper_of_mem (t : Tree) (path : Path) (h : t.node path ≠ none) :
    ∀ name ∈ path, Proper name := by
  intro name hname
  obtain ⟨before, rest, rfl⟩ := List.append_of_mem hname
  apply t.proper before name
  intro hnone
  have hbelow := t.none_of_prefix _ rest hnone
  rw [List.append_assoc, List.singleton_append] at hbelow
  exact h hbelow

def Tree.hasChild (t : Tree) (path : Path) : Bool :=
  t.names.any (fun p => decide (p ≠ [] ∧ p.dropLast = path ∧ t.node p ≠ none))

theorem Tree.hasChild_eq_false (t : Tree) (path : Path) :
    t.hasChild path = false ↔ ∀ name, t.node (path ++ [name]) = none := by
  rw [hasChild, List.any_eq_false]
  constructor
  · intro h name
    by_contra hsome
    exact h _ (t.named _ hsome) (by simp [hsome])
  · intro h p _
    simp only [decide_eq_true_eq]
    rintro ⟨hne, rfl, hsome⟩
    rw [← List.dropLast_append_getLast hne] at hsome
    exact hsome (h _)

/-- A file or a new directory under a name. -/
def Tree.put (t : Tree) (path : Path) (value : Node) : Option Tree :=
  if h : path ≠ [] ∧ t.node path.dropLast = some .dir ∧ t.node path ≠ some .dir ∧
      ∀ name ∈ path.getLast?, Proper name then
    some {
      node := Function.update t.node path (some value)
      names := path :: t.names
      named := by
        intro p hp
        by_cases hpath : p = path
        · exact hpath ▸ List.mem_cons_self
        · rw [Function.update_of_ne hpath] at hp
          exact List.mem_cons_of_mem _ (t.named p hp)
      closed := by
        intro p name hp
        by_cases hpath : p ++ [name] = path
        · have hparent : p = path.dropLast := by rw [← hpath, List.dropLast_concat]
          have hne : p ≠ path := by
            rintro rfl
            simp at hpath
          rw [Function.update_of_ne hne, hparent]
          exact h.2.1
        · rw [Function.update_of_ne hpath] at hp
          have hdir := t.closed p name hp
          have hne : p ≠ path := by
            rintro rfl
            exact h.2.2.1 hdir
          rw [Function.update_of_ne hne]
          exact hdir
      proper := by
        intro p name hp
        by_cases hpath : p ++ [name] = path
        · exact h.2.2.2 name (by rw [← hpath, List.getLast?_concat]; rfl)
        · rw [Function.update_of_ne hpath] at hp
          exact t.proper p name hp }
  else none

/-- A file or an empty directory is removed. -/
def Tree.erase (t : Tree) (path : Path) : Option Tree :=
  if h : path ≠ [] ∧ t.node path ≠ none ∧ t.hasChild path = false then
    some {
      node := Function.update t.node path none
      names := t.names
      named := by
        intro p hp
        by_cases hpath : p = path
        · exact absurd (by rw [hpath, Function.update_self]) hp
        · rw [Function.update_of_ne hpath] at hp
          exact t.named p hp
      closed := by
        intro p name hp
        by_cases hpath : p ++ [name] = path
        · exact absurd (by rw [hpath, Function.update_self]) hp
        · rw [Function.update_of_ne hpath] at hp
          have hne : p ≠ path := by
            rintro rfl
            exact hp ((t.hasChild_eq_false p).mp h.2.2 name)
          rw [Function.update_of_ne hne]
          exact t.closed p name hp
      proper := by
        intro p name hp
        by_cases hpath : p ++ [name] = path
        · exact absurd (by rw [hpath, Function.update_self]) hp
        · rw [Function.update_of_ne hpath] at hp
          exact t.proper p name hp }
  else none

/-- Whether one node can be renamed to the other: a directory replaces an empty directory only,
and nothing else replaces a directory. -/
def Tree.replaceable (t : Tree) (source target : Path) : Bool :=
  match t.node source, t.node target with
  | none, _ => false
  | some .dir, none => true
  | some .dir, some .dir => !t.hasChild target
  | some .dir, some _ => false
  | some _, some .dir => false
  | some _, _ => true

def movedNode (t : Tree) (source target : Path) (path : Path) : Option Node :=
  if target <+: path then t.node (source ++ path.drop target.length)
  else if source <+: path then none
  else t.node path

/-- `os.replace` -/
def Tree.move (t : Tree) (source target : Path) : Option Tree :=
  if h : target ≠ [] ∧ ¬ source <+: target ∧ t.node target.dropLast = some .dir ∧
      t.replaceable source target = true ∧ ∀ name ∈ target.getLast?, Proper name then
    some {
      node := movedNode t source target
      names := t.names ++ t.names.map (fun p => target ++ p.drop source.length)
      named := by
        intro p hp
        unfold movedNode at hp
        split at hp
        · rename_i hprefix
          obtain ⟨rest, rfl⟩ := hprefix
          rw [List.drop_left] at hp
          refine List.mem_append_right _ (List.mem_map.mpr ⟨_, t.named _ hp, ?_⟩)
          rw [List.drop_left]
        · split at hp
          · exact absurd rfl hp
          · exact List.mem_append_left _ (t.named p hp)
      closed := by
        intro p name hp
        unfold movedNode at hp ⊢
        have hup : ∀ dir, dir <+: p → dir <+: p ++ [name] := fun dir hdir =>
          hdir.trans (List.prefix_append _ _)
        split at hp
        · rename_i hprefix
          obtain ⟨rest, hrest⟩ := hprefix
          rcases List.eq_nil_or_concat rest with rfl | ⟨rest', last, rfl⟩
          · rw [List.append_nil] at hrest
            have hparent : p = target.dropLast := by rw [hrest, List.dropLast_concat]
            have hnot : ¬ target <+: p := by
              intro hle
              have hlength := hle.length_le
              rw [hrest, List.length_append] at hlength
              simp at hlength
            have hnot' : ¬ source <+: p := fun hle => h.2.1 (hrest ▸ hup source hle)
            rw [if_neg hnot, if_neg hnot', hparent]
            exact h.2.2.1
          · rw [List.concat_eq_append, ← List.append_assoc] at hrest
            obtain ⟨rfl, -⟩ := List.append_inj' hrest rfl
            rw [if_pos (List.prefix_append _ _), List.drop_left]
            rw [List.append_assoc, List.drop_left, ← List.append_assoc] at hp
            exact t.closed _ _ hp
        · rename_i hnot
          split at hp
          · exact absurd rfl hp
          · rename_i hnot'
            rw [if_neg (fun hle => hnot (hup _ hle)), if_neg (fun hle => hnot' (hup _ hle))]
            exact t.closed _ _ hp
      proper := by
        intro p name hp
        unfold movedNode at hp
        split at hp
        · rename_i hprefix
          obtain ⟨rest, hrest⟩ := hprefix
          rcases List.eq_nil_or_concat rest with rfl | ⟨rest', last, rfl⟩
          · rw [List.append_nil] at hrest
            exact h.2.2.2.2 name (by rw [hrest, List.getLast?_concat]; rfl)
          · rw [List.concat_eq_append, ← List.append_assoc] at hrest
            obtain ⟨rfl, hlast⟩ := List.append_inj' hrest rfl
            obtain rfl : last = name := by simpa using hlast
            rw [List.append_assoc, List.drop_left, ← List.append_assoc] at hp
            exact t.proper _ _ hp
        · split at hp
          · exact absurd rfl hp
          · exact t.proper _ _ hp }
  else none

section Nodes

variable {t t' : Tree} {path source target : Path}

theorem put_node {value : Node} (h : t.put path value = some t') :
    t'.node = Function.update t.node path (some value) := by
  unfold Tree.put at h
  split at h
  · exact (Option.some.inj h) ▸ rfl
  · simp at h

theorem erase_node (h : t.erase path = some t') : t'.node = Function.update t.node path none := by
  unfold Tree.erase at h
  split at h
  · exact (Option.some.inj h) ▸ rfl
  · simp at h

theorem move_node (h : t.move source target = some t') : t'.node = movedNode t source target := by
  unfold Tree.move at h
  split at h
  · exact (Option.some.inj h) ▸ rfl
  · simp at h

theorem movedNode_below (rest : Path) :
    movedNode t source target (target ++ rest) = t.node (source ++ rest) := by
  rw [movedNode, if_pos (List.prefix_append _ _), List.drop_left]

theorem movedNode_of_not (htarget : ¬ target <+: path) (hsource : ¬ source <+: path) :
    movedNode t source target path = t.node path := by
  rw [movedNode, if_neg htarget, if_neg hsource]

/-- The nodes below a directory. -/
def Tree.view (t : Tree) (dir : Path) : Path → Option Node := fun rest => t.node (dir ++ rest)

theorem put_view {dir rest : Path} {value : Node} (h : t.put (dir ++ rest) value = some t') :
    t'.view dir = Function.update (t.view dir) rest (some value) := by
  funext other
  rw [Tree.view, put_node h]
  by_cases hother : other = rest
  · rw [hother, Function.update_self, Function.update_self]
  · rw [Function.update_of_ne hother, Function.update_of_ne (by simpa using hother), Tree.view]

theorem erase_view {dir rest : Path} (h : t.erase (dir ++ rest) = some t') :
    t'.view dir = Function.update (t.view dir) rest none := by
  funext other
  rw [Tree.view, erase_node h]
  by_cases hother : other = rest
  · rw [hother, Function.update_self, Function.update_self]
  · rw [Function.update_of_ne hother, Function.update_of_ne (by simpa using hother), Tree.view]

/-- A path that leads to no directory has nothing below it. -/
theorem Tree.none_below (t : Tree) {rest : Path} (h : t.node path ≠ some .dir)
    (hrest : rest ≠ []) : t.node (path ++ rest) = none := by
  by_contra hsome
  exact h (t.dir_of_prefix path rest hrest hsome)

theorem replaceable_of_move (h : t.move source target = some t') :
    t.replaceable source target = true := by
  unfold Tree.move at h
  split at h
  · rename_i hmove
    exact hmove.2.2.2.1
  · simp at h

theorem exists_put (dir : Path) (name : String) (value : Node)
    (hdir : t.node dir = some .dir) (h : t.node (dir ++ [name]) ≠ some .dir)
    (hproper : Proper name) : ∃ t', t.put (dir ++ [name]) value = some t' := by
  unfold Tree.put
  rw [dif_pos ⟨by simp, by rwa [List.dropLast_concat], h, by simpa using hproper⟩]
  exact ⟨_, rfl⟩

theorem exists_move (source dir : Path) (name : String)
    (hbelow : ¬ source <+: dir ++ [name]) (hdir : t.node dir = some .dir)
    (h : t.replaceable source (dir ++ [name]) = true) (hproper : Proper name) :
    ∃ t', t.move source (dir ++ [name]) = some t' := by
  unfold Tree.move
  rw [dif_pos ⟨by simp, hbelow, by rwa [List.dropLast_concat], h, by simpa using hproper⟩]
  exact ⟨_, rfl⟩

/-- A file is renamed within a directory. -/
theorem move_file {dir : Path} {a b : String} {content : Bytes} (hab : a ≠ b)
    (hfile : t.node (dir ++ [a]) = some (.file content))
    (h : t.move (dir ++ [a]) (dir ++ [b]) = some t') :
    t'.view dir = Function.update (Function.update (t.view dir) [a] none) [b]
      (some (.file content)) := by
  have htarget : t.node (dir ++ [b]) ≠ some .dir := by
    intro hdir
    have hreplaceable := replaceable_of_move h
    rw [Tree.replaceable, hfile, hdir] at hreplaceable
    simp at hreplaceable
  have hbelow : ∀ first second : String, ∀ rest : Path,
      dir ++ [first] <+: dir ++ second :: rest ↔ first = second := by
    intro first second rest
    rw [List.prefix_append_right_inj, List.cons_prefix_cons]
    simp
  funext rest
  rw [Tree.view, move_node h]
  match rest with
  | [] =>
    have hnot : ∀ name : String, ¬ dir ++ [name] <+: dir ++ [] := by
      intro name hle
      have hlength := hle.length_le
      simp at hlength
    rw [movedNode_of_not (hnot b) (hnot a), Function.update_of_ne (by simp),
      Function.update_of_ne (by simp)]
    rfl
  | name :: rest =>
    by_cases hb : b = name
    · subst hb
      have hsplit : dir ++ b :: rest = (dir ++ [b]) ++ rest := by simp
      rw [hsplit, movedNode_below]
      by_cases hrest : rest = []
      · rw [hrest, List.append_nil, hfile, Function.update_self]
      · rw [Function.update_of_ne (by simpa using hrest),
          Function.update_of_ne (by simp [hab.symm]),
          t.none_below (by rw [hfile]; simp) hrest, Tree.view, hsplit,
          t.none_below htarget hrest]
    · by_cases ha : a = name
      · subst ha
        have hmoved : movedNode t (dir ++ [a]) (dir ++ [b]) (dir ++ a :: rest) = none := by
          rw [movedNode, if_neg (by rw [hbelow]; exact hb), if_pos ((hbelow _ _ _).mpr rfl)]
        rw [hmoved, Function.update_of_ne (by simp [hab])]
        by_cases hrest : rest = []
        · rw [hrest, Function.update_self]
        · have hsplit : dir ++ a :: rest = (dir ++ [a]) ++ rest := by simp
          rw [Function.update_of_ne (by simpa using hrest), Tree.view, hsplit,
            t.none_below (by rw [hfile]; simp) hrest]
      · rw [movedNode_of_not (by rw [hbelow]; exact hb) (by rw [hbelow]; exact ha),
          Function.update_of_ne (by simp [Ne.symm hb]),
            Function.update_of_ne (by simp [Ne.symm ha])]
        rfl

end Nodes

/-- The names below a directory, relative to it. -/
def Tree.below (t : Tree) (dir : Path) : List Path :=
  ((t.names.filter (fun p => decide (dir <+: p ∧ p ≠ dir ∧ t.node p ≠ none))).map
    (List.drop dir.length)).dedup

theorem mem_below (t : Tree) (dir rest : Path) :
    rest ∈ t.below dir ↔ rest ≠ [] ∧ t.node (dir ++ rest) ≠ none := by
  rw [Tree.below, List.mem_dedup, List.mem_map]
  simp only [List.mem_filter, decide_eq_true_eq]
  constructor
  · rintro ⟨p, ⟨-, ⟨tail, rfl⟩, hne, hsome⟩, rfl⟩
    rw [List.drop_left]
    exact ⟨fun hnil => hne (by rw [hnil, List.append_nil]), hsome⟩
  · rintro ⟨hne, hsome⟩
    refine ⟨dir ++ rest, ⟨t.named _ hsome, List.prefix_append _ _, ?_, hsome⟩, List.drop_left⟩
    simpa using hne

theorem nodup_below (t : Tree) (dir : Path) : (t.below dir).Nodup := List.nodup_dedup _

/-- `sorted(...)` of paths -/
def sortPaths (paths : List Path) : List Path := paths.insertionSort (· ≤ ·)

theorem mem_sortPaths (paths : List Path) (path : Path) : path ∈ sortPaths paths ↔ path ∈ paths :=
  List.mem_insertionSort _

theorem nodup_sortPaths (paths : List Path) (h : paths.Nodup) : (sortPaths paths).Nodup :=
  (List.perm_insertionSort _ paths).nodup_iff.mpr h

theorem sortPaths_congr (paths paths' : List Path) (h : paths.Nodup) (h' : paths'.Nodup)
    (hmem : ∀ path, path ∈ paths ↔ path ∈ paths') : sortPaths paths = sortPaths paths' := by
  have hperm : (sortPaths paths).Perm (sortPaths paths') := by
    rw [List.perm_ext_iff_of_nodup (nodup_sortPaths _ h) (nodup_sortPaths _ h')]
    intro path
    rw [mem_sortPaths, mem_sortPaths, hmem]
  exact hperm.eq_of_pairwise' (List.pairwise_insertionSort _ _) (List.pairwise_insertionSort _ _)

/-- The sorted names below a directory depend on the nodes only. -/
theorem sortPaths_below (t t' : Tree) (dir dir' : Path)
    (h : ∀ rest, t.node (dir ++ rest) = none ↔ t'.node (dir' ++ rest) = none) :
    sortPaths (t.below dir) = sortPaths (t'.below dir') := by
  apply sortPaths_congr _ _ (nodup_below _ _) (nodup_below _ _)
  intro path
  rw [mem_below, mem_below]
  exact and_congr Iff.rfl (not_congr (h path))

end Decillion.Trees
