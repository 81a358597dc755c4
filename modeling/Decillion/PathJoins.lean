import Decillion.ByteText

/-!
Joining a path with a text, a path being the list of the names from the top. A text that
begins with a slash starts again at the top, empty names and single dots are left out, and
two dots lead back to the directory above.
-/
namespace Decillion.PathJoins

open ByteText

/-- The names between the slashes of a text. -/
def components (text : String) : List String :=
  ((List.splitOn '/' (chars text)).map String.ofList).filter (fun name => name ≠ "" ∧ name ≠ ".")

def isAbsolute (text : String) : Bool := (chars text).head? = some '/'

def enter (directory : List String) (name : String) : List String :=
  if name = ".." then directory.dropLast else directory ++ [name]

/-- Where `base / text` leads. -/
def locate (base : List String) (text : String) : List String :=
  (components text).foldl enter (if isAbsolute text then [] else base)

theorem components_name (text : String) (hslash : '/' ∉ text.toList) (hempty : text ≠ "")
    (hdot : text ≠ ".") : components text = [text] := by
  have hsplit : List.splitOn '/' (chars text) = [text.toList] := by
    rw [chars_eq]
    apply List.splitOnP_eq_singleton
    intro c hc
    rw [beq_eq_false_iff_ne]
    rintro rfl
    exact hslash hc
  simp [components, hsplit, hempty, hdot]

theorem isAbsolute_name (text : String) (hslash : '/' ∉ text.toList) : isAbsolute text = false := by
  rw [isAbsolute, chars_eq, decide_eq_false_iff_not]
  intro hhead
  exact hslash (List.mem_of_mem_head? hhead)

/-- A text that is one name leads one level down. -/
theorem locate_name (base : List String) (text : String) (hslash : '/' ∉ text.toList)
    (hempty : text ≠ "") (hdot : text ≠ ".") (hdots : text ≠ "..") :
    locate base text = base ++ [text] := by
  rw [locate, components_name text hslash hempty hdot, isAbsolute_name text hslash]
  simp [enter, hdots]

theorem splitOn_append (front suffix : List Char) (h : '/' ∉ suffix) :
    ∃ init last, List.splitOn '/' (front ++ suffix) = init ++ [last ++ suffix] := by
  induction front with
  | nil =>
    refine ⟨[], [], ?_⟩
    apply List.splitOnP_eq_singleton
    intro c hc
    rw [beq_eq_false_iff_ne]
    rintro rfl
    exact h hc
  | cons c rest ih =>
    obtain ⟨init, last, hsplit⟩ := ih
    rw [List.splitOn] at hsplit
    rw [List.cons_append, List.splitOn, List.splitOnP_cons_eq_if_modifyHead, hsplit]
    split
    · exact ⟨[] :: init, last, rfl⟩
    · cases init with
      | nil => exact ⟨[], c :: last, rfl⟩
      | cons head tail => exact ⟨(c :: head) :: tail, last, rfl⟩

/-- A text that ends in a long suffix without slashes leads to a name that ends in it. -/
theorem locate_append (base : List String) (text suffix : String)
    (hslash : '/' ∉ suffix.toList) (hlong : 2 < suffix.toList.length) :
    ∃ directory front, locate base (text ++ suffix) = directory ++ [front ++ suffix] := by
  obtain ⟨init, last, hsplit⟩ := splitOn_append text.toList suffix.toList hslash
  have hname : String.ofList (last ++ suffix.toList) = String.ofList last ++ suffix := by
    simp [String.ofList_append]
  have hlength : 2 < (String.ofList last ++ suffix).toList.length := by
    rw [String.toList_append, List.length_append]
    omega
  have hne : ∀ other : String, other.toList.length ≤ 2 → String.ofList last ++ suffix ≠ other := by
    rintro other hother rfl
    omega
  have hcomponents : ∃ names,
      components (text ++ suffix) = names ++ [String.ofList last ++ suffix] := by
    refine ⟨(init.map String.ofList).filter (fun name => name ≠ "" ∧ name ≠ "."), ?_⟩
    rw [components, chars_eq, String.toList_append, hsplit, List.map_append, List.filter_append,
      List.map_singleton, hname]
    congr 1
    simp [hne "" (by decide), hne "." (by decide)]
  obtain ⟨names, hnames⟩ := hcomponents
  refine ⟨names.foldl enter (if isAbsolute (text ++ suffix) then [] else base),
    String.ofList last, ?_⟩
  rw [locate, hnames, List.foldl_append, List.foldl_cons, List.foldl_nil, enter,
    if_neg (hne ".." (by decide))]

end Decillion.PathJoins
