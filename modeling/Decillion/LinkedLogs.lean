import Mathlib.Data.List.Infix
import Mathlib.Data.List.Nodup

/-!
Logs whose entries name their predecessor. Every entry carries a label of its own and the
label of the entry before it, the first one a given initial label. When no label occurs
twice, the label after a beginning of the log identifies that beginning, so a linked list
of entries of the log is a beginning of the log.
-/
namespace Decillion.LinkedLogs

variable {E L : Type*} (prev link : E → L)

def Linked : L → List E → Prop
  | _, [] => True
  | head, e :: rest => prev e = head ∧ Linked (link e) rest

/-- The label the next entry has to name. -/
def headAfter : L → List E → L
  | head, [] => head
  | _, e :: rest => headAfter (link e) rest

theorem headAfter_append (head : L) (a b : List E) :
    headAfter link head (a ++ b) = headAfter link (headAfter link head a) b := by
  induction a generalizing head with
  | nil => rfl
  | cons e rest ih => exact ih (link e)

theorem headAfter_concat (head : L) (a : List E) (e : E) :
    headAfter link head (a ++ [e]) = link e := by
  rw [headAfter_append]
  rfl

theorem headAfter_mem (head : L) (a : List E) :
    headAfter link head a = head ∨ headAfter link head a ∈ a.map link := by
  induction a generalizing head with
  | nil => exact Or.inl rfl
  | cons e rest ih =>
    rcases ih (link e) with h | h
    · exact Or.inr (by simp [headAfter, h])
    · exact Or.inr (List.mem_cons_of_mem _ h)

theorem linked_append (head : L) (a b : List E) :
    Linked prev link head (a ++ b) ↔
      Linked prev link head a ∧ Linked prev link (headAfter link head a) b := by
  induction a generalizing head with
  | nil => simp [Linked, headAfter]
  | cons e rest ih => simp [Linked, headAfter, ih, and_assoc]

theorem linked_concat (head : L) (a : List E) (e : E) :
    Linked prev link head (a ++ [e]) ↔
      Linked prev link head a ∧ prev e = headAfter link head a := by
  simp [linked_append, Linked]

theorem getElem?_headAfter (head : L) (a b : List E) :
    (head :: (a ++ b).map link)[a.length]? = some (headAfter link head a) := by
  induction a generalizing head with
  | nil => rfl
  | cons e rest ih => simpa [headAfter] using ih (link e)

/-- Labels occur once, so two beginnings of a log with one label after them are equal. -/
theorem prefix_eq_of_headAfter (head : L) (log a b : List E)
    (hnodup : (head :: log.map link).Nodup) (ha : a <+: log) (hb : b <+: log)
    (h : headAfter link head a = headAfter link head b) : a = b := by
  obtain ⟨restA, rfl⟩ := ha
  obtain ⟨restB, hB⟩ := hb
  have hA' := getElem?_headAfter link head a restA
  have hB' := getElem?_headAfter link head b restB
  rw [hB, ← h] at hB'
  have hlength : a.length = b.length := by
    apply (List.getElem?_inj _ hnodup).mp (hA'.trans hB'.symm)
    simp only [List.length_append, List.length_cons, List.length_map]
    omega
  exact (List.append_inj hB hlength.symm).1.symm

/-- An entry of a linked log that names the label after a beginning comes right after it. -/
theorem concat_prefix_of_linked (head : L) (log a : List E) (e : E)
    (hlog : Linked prev link head log) (hnodup : (head :: log.map link).Nodup) (ha : a <+: log)
    (hmem : e ∈ log) (hprev : prev e = headAfter link head a) : a ++ [e] <+: log := by
  obtain ⟨before, after, rfl⟩ := List.append_of_mem hmem
  have hsplit := ((linked_append prev link head before (e :: after)).mp hlog).2.1
  have heq : before = a := prefix_eq_of_headAfter link head _ before a hnodup
    (List.prefix_append before _) ha (hsplit.symm.trans hprev)
  exact ⟨after, by simp [heq]⟩

/-- A linked list of entries of a linked log is a beginning of the log. -/
theorem prefix_of_linked (head : L) (log entries : List E) (hlog : Linked prev link head log)
    (hnodup : (head :: log.map link).Nodup) (hentries : Linked prev link head entries)
    (hmem : ∀ e ∈ entries, e ∈ log) : entries <+: log := by
  induction entries using List.reverseRecOn with
  | nil => exact List.nil_prefix
  | append_singleton before e ih =>
    obtain ⟨hbefore, hprev⟩ := (linked_concat prev link head before e).mp hentries
    have hprefix := ih hbefore (fun x hx => hmem x (List.mem_append_left _ hx))
    exact concat_prefix_of_linked prev link head log before e hlog hnodup hprefix
      (hmem e (by simp)) hprev

end Decillion.LinkedLogs
