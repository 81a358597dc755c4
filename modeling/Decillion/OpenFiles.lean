import Decillion.ByteText
import Mathlib.Logic.Function.Basic
import Mathlib.Tactic.Common

/-!
Files that are open under their names. A name stands for a file, and what is written through a
handle goes to the file that was opened, whatever its name is now. A handle keeps its offset and
the octets that have not been written yet. A write behind the end of a file fills the gap with
zeros.
-/
namespace Decillion.OpenFiles

open ByteText

/-- Names and files, of which each has one name at most. -/
structure Disk (π : Type) where
  entry : π → Option ℕ
  content : ℕ → Bytes
  fresh : ℕ
  bound : ∀ path file, entry path = some file → file < fresh
  single : ∀ path path' file, entry path = some file → entry path' = some file → path = path'

/-- An open file with the octets that are still to be written. -/
structure Handle where
  file : ℕ
  offset : ℕ
  pending : Bytes

/-- The content of a file after a write at an offset. -/
def overwrite (content : Bytes) (offset : ℕ) (bytes : Bytes) : Bytes :=
  if bytes = [] then content
  else content.take offset ++ List.replicate (offset - content.length) 0 ++ bytes ++
    content.drop (offset + bytes.length)

/-- A write at the end of a file appends to it. -/
theorem overwrite_end (content bytes : Bytes) :
    overwrite content content.length bytes = content ++ bytes := by
  unfold overwrite
  split
  · rename_i h
    rw [h, List.append_nil]
  · rw [List.take_length, Nat.sub_self, List.replicate_zero, List.append_nil,
      List.drop_eq_nil_of_le (by omega), List.append_nil]

namespace Disk

variable {π : Type} (d : Disk π)

def read (path : π) : Option Bytes := (d.entry path).map d.content

def write (file offset : ℕ) (bytes : Bytes) : Disk π :=
  { d with content := Function.update d.content file (overwrite (d.content file) offset bytes) }

variable [DecidableEq π]

/-- The file of a name and the disk on which it is empty; a new file if there is none. -/
def openEmpty (path : π) : ℕ × Disk π :=
  match h : d.entry path with
  | some file => (file, { d with content := Function.update d.content file [] })
  | none => (d.fresh, {
      entry := Function.update d.entry path (some d.fresh)
      content := Function.update d.content d.fresh []
      fresh := d.fresh + 1
      bound := by
        intro other file hfile
        by_cases hother : other = path
        · rw [hother, Function.update_self, Option.some.injEq] at hfile
          omega
        · rw [Function.update_of_ne hother] at hfile
          have := d.bound other file hfile
          omega
      single := by
        intro a b file ha hb
        by_cases hpath : a = path
        · by_cases hpath' : b = path
          · rw [hpath, hpath']
          · rw [hpath, Function.update_self, Option.some.injEq] at ha
            rw [Function.update_of_ne hpath'] at hb
            have := d.bound b file hb
            omega
        · rw [Function.update_of_ne hpath] at ha
          by_cases hpath' : b = path
          · rw [hpath', Function.update_self, Option.some.injEq] at hb
            have := d.bound a file ha
            omega
          · rw [Function.update_of_ne hpath'] at hb
            exact d.single a b file ha hb })

/-- The name is taken away. -/
def unlink (path : π) : Disk π := { d with
  entry := Function.update d.entry path none
  bound := by
    intro other file hfile
    by_cases hother : other = path
    · rw [hother, Function.update_self] at hfile
      cases hfile
    · rw [Function.update_of_ne hother] at hfile
      exact d.bound other file hfile
  single := by
    intro a b file ha hb
    by_cases hpath : a = path
    · rw [hpath, Function.update_self] at ha
      cases ha
    · by_cases hpath' : b = path
      · rw [hpath', Function.update_self] at hb
        cases hb
      · rw [Function.update_of_ne hpath] at ha
        rw [Function.update_of_ne hpath'] at hb
        exact d.single a b file ha hb }

/-- The file of the first name gets the second one; `none` if there is no such file. -/
def rename (source target : π) : Option (Disk π) :=
  match h : d.entry source with
  | none => none
  | some file => some { d with
      entry := Function.update (Function.update d.entry source none) target (some file)
      bound := by
        intro other found hfound
        by_cases htarget : other = target
        · rw [htarget, Function.update_self, Option.some.injEq] at hfound
          rw [← hfound]
          exact d.bound source file h
        · rw [Function.update_of_ne htarget] at hfound
          exact (d.unlink source).bound other found hfound
      single := by
        have hgone : ∀ other, Function.update d.entry source none other ≠ some file := by
          intro other hother
          by_cases hsource : other = source
          · rw [hsource, Function.update_self] at hother
            cases hother
          · rw [Function.update_of_ne hsource] at hother
            exact hsource (d.single other source file hother h)
        intro a b found ha hb
        by_cases htarget : a = target
        · by_cases htarget' : b = target
          · rw [htarget, htarget']
          · rw [htarget, Function.update_self, Option.some.injEq] at ha
            rw [Function.update_of_ne htarget', ← ha] at hb
            exact absurd hb (hgone b)
        · rw [Function.update_of_ne htarget] at ha
          by_cases htarget' : b = target
          · rw [htarget', Function.update_self, Option.some.injEq] at hb
            rw [← hb] at ha
            exact absurd ha (hgone a)
          · rw [Function.update_of_ne htarget'] at hb
            exact (d.unlink source).single a b found ha hb }

theorem openEmpty_entry (path : π) : (d.openEmpty path).2.entry =
    Function.update d.entry path (some (d.openEmpty path).1) := by
  unfold openEmpty
  split
  · rename_i file h
    exact (Function.update_eq_self_iff.mpr h.symm).symm
  · rfl

theorem openEmpty_content (path : π) : (d.openEmpty path).2.content =
    Function.update d.content (d.openEmpty path).1 [] := by
  unfold openEmpty
  split <;> rfl

/-- The opened file has no other name. -/
theorem openEmpty_other {path other : π} (h : other ≠ path) :
    d.entry other ≠ some (d.openEmpty path).1 := by
  intro hother
  unfold openEmpty at hother
  split at hother
  · rename_i file hfile
    exact h (d.single other path file hother hfile)
  · have := d.bound other d.fresh hother
    omega

theorem rename_of_none {source : π} (h : d.entry source = none) (target : π) :
    d.rename source target = none := by
  unfold rename
  split
  · rfl
  · rename_i file hfile
    rw [h] at hfile
    cases hfile

theorem rename_of_some {source : π} {file : ℕ} (h : d.entry source = some file) (target : π) :
    ∃ d', d.rename source target = some d' ∧ d'.content = d.content ∧
      d'.entry = Function.update (Function.update d.entry source none) target (some file) := by
  unfold rename
  split
  · rename_i hnone
    rw [h] at hnone
    cases hnone
  · rename_i found hfound
    rw [h, Option.some.injEq] at hfound
    subst hfound
    exact ⟨_, rfl, rfl, rfl⟩

end Disk

namespace Handle

variable {π : Type}

/-- Octets are put behind those that are still to be written. -/
def put (h : Handle) (bytes : Bytes) : Handle := { h with pending := h.pending ++ bytes }

/-- The handle once the first of its octets have been written. -/
def flushed (h : Handle) (count : ℕ) : Handle :=
  ⟨h.file, h.offset + (h.pending.take count).length, h.pending.drop count⟩

/-- The first octets of the handle reach the file. -/
def flush (h : Handle) (count : ℕ) (d : Disk π) : Disk π :=
  d.write h.file h.offset (h.pending.take count)

/-- Octets that are written at the end of the file move from the handle to the file. -/
theorem flush_end {h : Handle} {d : Disk π} (hoffset : h.offset = (d.content h.file).length)
    (count : ℕ) : (h.flush count d).content h.file = d.content h.file ++ h.pending.take count := by
  change Function.update d.content h.file _ h.file = _
  rw [Function.update_self, hoffset, overwrite_end]

theorem flush_other {h : Handle} {d : Disk π} {file : ℕ} (hne : file ≠ h.file) (count : ℕ) :
    (h.flush count d).content file = d.content file := Function.update_of_ne hne _ _

end Handle

end Decillion.OpenFiles
