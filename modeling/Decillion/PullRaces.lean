import Decillion.OpenFiles
import Decillion.PullRuns

/-!
Pulls of one model to one place, side by side. All of them write to one temporary file, empty it
when they open it, and move whatever has its name to the target. Any number of pulls take their
steps in any order. As long as none of them opens the file while another one has it open or is
about to move it, the target is the model whenever a pull has moved its file there.
-/
namespace Decillion.PullRaces

open ByteText Primitives PyErrors HostSystem TelepathPulls OpenFiles

/-- How far a pull has come. What it has received stands in the order of the shards. -/
inductive Stage where
  | waiting
  | receiving (handle : Handle) (received : List Bytes)
  | failing (handle : Handle)
  | closed (received : List Bytes)
  | leaving (result : Except PyError Unit)
  | reporting
  | ended (result : Except PyError Unit)
  | killed

/-- A step of a pull. The buffer of the file writes some of its octets with each shard, and the
rest when the file is closed, unless that fails. -/
inductive Action where
  | openPart
  | fetch (count : ℕ)
  | giveUp
  | close (spoiled : Option ℕ)
  | move
  | unlink
  | finish (result : Except PyError Unit)
  | kill

/-- The end of the `with`, and what the pull is at after it. -/
def closePart (handle : Handle) (spoiled : Option ℕ) (after : Stage) (d : Disk Path) :
    Stage × Disk Path :=
  match spoiled with
  | none => (after, handle.flush handle.pending.length d)
  | some count => (.leaving (.error .osError), handle.flush count d)

variable (sha : Sha256) (shards : List Bytes) (announced : String) (temporary target : Path)

/-- `temporary.replace(target)` when the hash is right -/
def movePart (received : List Bytes) (d : Disk Path) : Stage × Disk Path :=
  if sha.hexdigest received.flatten ≠ announced then
    (.leaving (.error (.runtimeError "reassembled model hash mismatch")), d)
  else match d.rename temporary target with
    | none => (.leaving (.error .fileNotFound), d)
    | some d' => (.leaving (.ok ()), d')

/-- A step of a pull that gets the right shards; nothing happens when it is not its turn. -/
def act (action : Action) (stage : Stage) (d : Disk Path) : Stage × Disk Path :=
  match action, stage with
  | .openPart, .waiting => (.receiving ⟨(d.openEmpty temporary).1, 0, []⟩ [],
      (d.openEmpty temporary).2)
  | .fetch count, .receiving handle received =>
      match shards[received.length]? with
      | none => (stage, d)
      | some chunk => (.receiving ((handle.put chunk).flushed count) (received ++ [chunk]),
          (handle.put chunk).flush count d)
  | .giveUp, .waiting => (.leaving (.error .osError), d)
  | .giveUp, .receiving handle _ => (.failing handle, d)
  | .close spoiled, .receiving handle received =>
      if received.length < shards.length then (stage, d)
      else closePart handle spoiled (.closed received) d
  | .close spoiled, .failing handle =>
      closePart handle spoiled (.leaving (.error .osError)) d
  | .move, .closed received => movePart sha announced temporary target received d
  | .unlink, .leaving (.ok ()) => (.reporting, d.unlink temporary)
  | .unlink, .leaving (.error e) => (.ended (.error e), d.unlink temporary)
  | .finish result, .reporting => (.ended result, d)
  | .kill, _ => (.killed, d)
  | _, _ => (stage, d)

/-- The pulls and the disk they share. -/
structure Shared (ι : Type) where
  stage : ι → Stage
  disk : Disk Path

variable {ι : Type} [DecidableEq ι]

def step (s : Shared ι) (event : ι × Action) : Shared ι where
  stage := Function.update s.stage event.1
    (act sha shards announced temporary target event.2 (s.stage event.1) s.disk).1
  disk := (act sha shards announced temporary target event.2 (s.stage event.1) s.disk).2

def run (s : Shared ι) (events : List (ι × Action)) : Shared ι :=
  events.foldl (step sha shards announced temporary target) s

/-- A pull has the temporary file open, or has closed it and not yet moved it. -/
def Busy : Stage → Prop
  | .receiving _ _ => True
  | .failing _ => True
  | .closed _ => True
  | _ => False

/-- A pull has moved its file to the target and not failed since. -/
def Moved : Stage → Prop
  | .leaving (.ok ()) => True
  | .reporting => True
  | .ended (.ok ()) => True
  | _ => False

/-- No pull opens the temporary file while another one is busy with it. -/
def Apart (s : Shared ι) (events : List (ι × Action)) : Prop :=
  ∀ before i, before ++ [(i, .openPart)] <+: events →
    (run sha shards announced temporary target s before).stage i = .waiting →
    ∀ j, ¬ Busy ((run sha shards announced temporary target s before).stage j)

/-- The file of a handle: it is not the target, and the temporary name stands for no other one. -/
def Held (d : Disk Path) (file : ℕ) : Prop :=
  d.entry target ≠ some file ∧ ∀ other, d.entry temporary = some other → other = file

/-- What a pull knows of the disk. -/
def Own (d : Disk Path) : Stage → Prop
  | .receiving handle received => Held temporary target d handle.file ∧ received <+: shards ∧
      handle.offset = (d.content handle.file).length ∧
      d.content handle.file ++ handle.pending = received.flatten
  | .failing handle => Held temporary target d handle.file
  | .closed received => received = shards ∧
      ∀ file, d.entry temporary = some file → d.content file = shards.flatten
  | _ => True

structure Sound (s : Shared ι) : Prop where
  alone : ∀ i j, Busy (s.stage i) → Busy (s.stage j) → i = j
  own : ∀ i, Own shards temporary target s.disk (s.stage i)
  done : ∀ i, Moved (s.stage i) → s.disk.read target = some shards.flatten

section Steps

variable {shards} {temporary} {target} {s : Shared ι} {i : ι} {stage : Stage} {d d' : Disk Path}

theorem own_of_not_busy (h : ¬ Busy stage) : Own shards temporary target d stage := by
  cases stage with
  | receiving handle received => exact absurd trivial h
  | failing handle => exact absurd trivial h
  | closed received => exact absurd trivial h
  | _ => trivial

omit [DecidableEq ι] in
theorem not_busy_of_busy (h : Sound shards temporary target s) (hi : Busy (s.stage i)) :
    ∀ j, j ≠ i → ¬ Busy (s.stage j) := fun j hj hbusy => hj (h.alone j i hbusy hi)

/-- What has to be seen of a step: its pull is alone if it is busy, it knows of the new disk what
it has to, so do the others, and the target stays or becomes the model. -/
theorem sound_update (h : Sound shards temporary target s)
    (hbusy : Busy stage → ∀ j, j ≠ i → ¬ Busy (s.stage j))
    (hown : Own shards temporary target d stage)
    (hothers : ∀ j, j ≠ i → Own shards temporary target d (s.stage j))
    (htarget : s.disk.read target = some shards.flatten → d.read target = some shards.flatten)
    (hmoved : Moved stage → d.read target = some shards.flatten) :
    Sound shards temporary target ⟨Function.update s.stage i stage, d⟩ := by
  have hself : Function.update s.stage i stage i = stage := Function.update_self _ _ _
  have hsame : ∀ j, j ≠ i → Function.update s.stage i stage j = s.stage j :=
    fun j hj => Function.update_of_ne hj _ _
  refine ⟨fun a b ha hb => ?_, fun j => ?_, fun j hj => ?_⟩
  · dsimp only at ha hb
    by_cases hai : a = i
    · by_cases hbi : b = i
      · rw [hai, hbi]
      · rw [hai, hself] at ha
        rw [hsame b hbi] at hb
        exact absurd hb (hbusy ha b hbi)
    · rw [hsame a hai] at ha
      by_cases hbi : b = i
      · rw [hbi, hself] at hb
        exact absurd ha (hbusy hb a hai)
      · rw [hsame b hbi] at hb
        exact h.alone a b ha hb
  · dsimp only
    by_cases hj : j = i
    · rwa [hj, hself]
    · rw [hsame j hj]
      exact hothers j hj
  · dsimp only at hj ⊢
    by_cases hji : j = i
    · rw [hji, hself] at hj
      exact hmoved hj
    · rw [hsame j hji] at hj
      exact htarget (h.done j hj)

/-- The step of a pull that is busy, and so the only one. -/
theorem sound_busy (h : Sound shards temporary target s) (hi : Busy (s.stage i))
    (hown : Own shards temporary target d stage)
    (htarget : d.read target = s.disk.read target)
    (hmoved : Moved stage → d.read target = some shards.flatten) :
    Sound shards temporary target ⟨Function.update s.stage i stage, d⟩ := by
  have hothers := not_busy_of_busy h hi
  exact sound_update h (fun _ => hothers) hown (fun j hj => own_of_not_busy (hothers j hj))
    (fun hread => htarget.trans hread) hmoved

theorem held_flush {handle : Handle} {file : ℕ} (h : Held temporary target d file) (count : ℕ) :
    Held temporary target (handle.flush count d) file := h

theorem read_flush {handle : Handle} {path : Path} (h : d.entry path ≠ some handle.file)
    (count : ℕ) : (handle.flush count d).read path = d.read path := by
  change (d.entry path).map (handle.flush count d).content = (d.entry path).map d.content
  cases hentry : d.entry path with
  | none => rfl
  | some file =>
    have hne : file ≠ handle.file := by
      rintro rfl
      exact h hentry
    rw [Option.map_some, Option.map_some, Handle.flush_other hne]

/-- A shard is received, and some of the octets reach the file. -/
theorem own_fetch {handle : Handle} {received : List Bytes} {chunk : Bytes} (count : ℕ)
    (h : Own shards temporary target d (.receiving handle received))
    (hchunk : shards[received.length]? = some chunk) :
    Own shards temporary target ((handle.put chunk).flush count d)
      (.receiving ((handle.put chunk).flushed count) (received ++ [chunk])) := by
  obtain ⟨hheld, hreceived, hoffset, hcontent⟩ := h
  have hflush := Handle.flush_end (h := handle.put chunk) hoffset count
  refine ⟨hheld, ?_, ?_, ?_⟩
  · obtain ⟨hlt, hget⟩ := List.getElem?_eq_some_iff.mp hchunk
    rw [List.prefix_iff_eq_take] at hreceived
    rw [List.prefix_iff_eq_take, List.length_append, List.length_singleton,
      List.take_succ_eq_append_getElem hlt, hget, ← hreceived]
  · change handle.offset + ((handle.put chunk).pending.take count).length = List.length
      (((handle.put chunk).flush count d).content (handle.put chunk).file)
    rw [hflush, List.length_append, hoffset]
    rfl
  · change ((handle.put chunk).flush count d).content (handle.put chunk).file ++
      (handle.put chunk).pending.drop count = _
    rw [hflush, List.append_assoc, List.take_append_drop, List.flatten_append]
    change d.content handle.file ++ (handle.pending ++ chunk) = _
    rw [← List.append_assoc, hcontent, List.flatten_singleton]

/-- All shards have been received, and the rest of the octets reaches the file. -/
theorem own_closed {handle : Handle} {received : List Bytes}
    (h : Own shards temporary target d (.receiving handle received))
    (hall : shards.length ≤ received.length) :
    Own shards temporary target (handle.flush handle.pending.length d) (.closed received) := by
  obtain ⟨hheld, hreceived, hoffset, hcontent⟩ := h
  have hsame : received = shards := hreceived.eq_of_length (le_antisymm hreceived.length_le hall)
  refine ⟨hsame, fun file hfile => ?_⟩
  rw [hheld.2 file hfile, Handle.flush_end hoffset, List.take_length, hcontent, hsame]

theorem held_openEmpty (hne : target ≠ temporary) (d : Disk Path) :
    Held temporary target (d.openEmpty temporary).2 (d.openEmpty temporary).1 := by
  rw [Held, Disk.openEmpty_entry]
  constructor
  · rw [Function.update_of_ne hne]
    exact d.openEmpty_other hne
  · intro other hother
    rw [Function.update_self, Option.some.injEq] at hother
    exact hother.symm

theorem read_openEmpty (hne : target ≠ temporary) (d : Disk Path) :
    (d.openEmpty temporary).2.read target = d.read target := by
  rw [Disk.read, Disk.read, Disk.openEmpty_entry, Disk.openEmpty_content,
    Function.update_of_ne hne]
  cases hentry : d.entry target with
  | none => rfl
  | some file =>
    have hother : file ≠ (d.openEmpty temporary).1 := by
      rintro rfl
      exact d.openEmpty_other hne hentry
    rw [Option.map_some, Option.map_some, Function.update_of_ne hother]

/-- The temporary name is taken away from a disk. -/
theorem own_unlink (hne : target ≠ temporary) (h : Own shards temporary target d stage) :
    Own shards temporary target (d.unlink temporary) stage := by
  have hgone : ∀ file, (d.unlink temporary).entry temporary ≠ some file := by
    intro file hfile
    change Function.update d.entry temporary none temporary = some file at hfile
    rw [Function.update_self] at hfile
    cases hfile
  have hheld : ∀ file, Held temporary target d file →
      Held temporary target (d.unlink temporary) file := by
    intro file hfile
    refine ⟨?_, fun other hother => absurd hother (hgone other)⟩
    change Function.update d.entry temporary none target ≠ some file
    rw [Function.update_of_ne hne]
    exact hfile.1
  cases stage with
  | receiving handle received => exact ⟨hheld _ h.1, h.2⟩
  | failing handle => exact hheld _ h
  | closed received => exact ⟨h.1, fun file hfile => absurd hfile (hgone file)⟩
  | _ => trivial

theorem read_unlink (hne : target ≠ temporary) (d : Disk Path) :
    (d.unlink temporary).read target = d.read target := by
  change (Function.update d.entry temporary none target).map d.content = _
  rw [Function.update_of_ne hne]
  rfl

end Steps

section Actions

variable {sha} {shards} {announced} {temporary} {target} {s : Shared ι} {i : ι}

theorem step_of_act {action : Action} {before stage : Stage} {d : Disk Path}
    (hstage : s.stage i = before)
    (h : act sha shards announced temporary target action before s.disk = (stage, d)) :
    step sha shards announced temporary target s (i, action) =
      ⟨Function.update s.stage i stage, d⟩ := by
  rw [step, hstage, h]

theorem step_of_stay {action : Action} {before : Stage} (hstage : s.stage i = before)
    (h : act sha shards announced temporary target action before s.disk = (before, s.disk)) :
    step sha shards announced temporary target s (i, action) = s := by
  rw [step_of_act hstage h, ← hstage, Function.update_eq_self]

/-- A step that only ends a pull or makes it fail. -/
theorem sound_quiet {stage : Stage} (h : Sound shards temporary target s) (hbusy : ¬ Busy stage)
    (hmoved : Moved stage → Moved (s.stage i)) :
    Sound shards temporary target ⟨Function.update s.stage i stage, s.disk⟩ :=
  sound_update h (fun hstage => absurd hstage hbusy) (own_of_not_busy hbusy) (fun j _ => h.own j) id
    (fun hstage => h.done i (hmoved hstage))

theorem sound_open (hne : target ≠ temporary) (h : Sound shards temporary target s)
    (hapart : s.stage i = .waiting → ∀ j, ¬ Busy (s.stage j)) :
    Sound shards temporary target
      (step sha shards announced temporary target s (i, .openPart)) := by
  cases hstage : s.stage i with
  | waiting =>
    have hfree := hapart hstage
    have hown : Own shards temporary target (s.disk.openEmpty temporary).2
        (.receiving ⟨(s.disk.openEmpty temporary).1, 0, []⟩ []) := by
      refine ⟨held_openEmpty hne _, List.nil_prefix, ?_, ?_⟩
      · rw [Disk.openEmpty_content, Function.update_self]
        rfl
      · rw [Disk.openEmpty_content, Function.update_self]
        rfl
    have hact : act sha shards announced temporary target .openPart .waiting s.disk =
        (.receiving ⟨(s.disk.openEmpty temporary).1, 0, []⟩ [], (s.disk.openEmpty temporary).2) :=
      rfl
    rw [step_of_act hstage hact]
    exact sound_update h (fun _ j _ => hfree j) hown (fun j _ => own_of_not_busy (hfree j))
      (fun hread => (read_openEmpty hne _).trans hread) False.elim
  | _ =>
    rw [step_of_stay hstage rfl]
    exact h

theorem sound_fetch (h : Sound shards temporary target s) (count : ℕ) :
    Sound shards temporary target
      (step sha shards announced temporary target s (i, .fetch count)) := by
  have hknows := h.own i
  cases hstage : s.stage i with
  | receiving handle received =>
    rw [hstage] at hknows
    have hbusy : Busy (s.stage i) := by
      rw [hstage]
      trivial
    cases hchunk : shards[received.length]? with
    | none =>
      rw [step_of_stay hstage (by simp only [act, hchunk])]
      exact h
    | some chunk =>
      have hheld : Held temporary target s.disk (handle.put chunk).file := hknows.1
      have hact : act sha shards announced temporary target (.fetch count)
          (.receiving handle received) s.disk =
            (.receiving ((handle.put chunk).flushed count) (received ++ [chunk]),
              (handle.put chunk).flush count s.disk) := by
        simp only [act, hchunk]
      rw [step_of_act hstage hact]
      exact sound_busy h hbusy (own_fetch count hknows hchunk) (read_flush hheld.1 count) False.elim
  | _ =>
    rw [step_of_stay hstage rfl]
    exact h

theorem sound_giveUp (h : Sound shards temporary target s) :
    Sound shards temporary target
      (step sha shards announced temporary target s (i, .giveUp)) := by
  have hknows := h.own i
  cases hstage : s.stage i with
  | waiting =>
    have hact : act sha shards announced temporary target .giveUp .waiting s.disk =
        (.leaving (.error .osError), s.disk) := rfl
    rw [step_of_act hstage hact]
    exact sound_quiet h id False.elim
  | receiving handle received =>
    rw [hstage] at hknows
    have hbusy : Busy (s.stage i) := by
      rw [hstage]
      trivial
    have hown : Own shards temporary target s.disk (.failing handle) := hknows.1
    have hact : act sha shards announced temporary target .giveUp (.receiving handle received)
        s.disk = (.failing handle, s.disk) := rfl
    rw [step_of_act hstage hact]
    exact sound_busy h hbusy hown rfl False.elim
  | _ =>
    rw [step_of_stay hstage rfl]
    exact h

/-- The end of the `with` of a pull that is busy. -/
theorem sound_closePart (h : Sound shards temporary target s) (hbusy : Busy (s.stage i))
    {handle : Handle} {spoiled : Option ℕ} {after : Stage}
    (hheld : Held temporary target s.disk handle.file) (hafter : ¬ Moved after)
    (hown : Own shards temporary target (handle.flush handle.pending.length s.disk) after) :
    Sound shards temporary target ⟨Function.update s.stage i
      (closePart handle spoiled after s.disk).1, (closePart handle spoiled after s.disk).2⟩ := by
  cases spoiled with
  | none =>
    exact sound_busy h hbusy hown (read_flush hheld.1 _) (fun hmoved => absurd hmoved hafter)
  | some count =>
    exact sound_busy h hbusy (own_of_not_busy id) (read_flush hheld.1 _) False.elim

theorem sound_close (h : Sound shards temporary target s) (spoiled : Option ℕ) :
    Sound shards temporary target
      (step sha shards announced temporary target s (i, .close spoiled)) := by
  have hknows := h.own i
  cases hstage : s.stage i with
  | receiving handle received =>
    rw [hstage] at hknows
    have hbusy : Busy (s.stage i) := by
      rw [hstage]
      trivial
    by_cases hrest : received.length < shards.length
    · rw [step_of_stay hstage (by simp only [act, if_pos hrest])]
      exact h
    · have hact : act sha shards announced temporary target (.close spoiled)
          (.receiving handle received) s.disk =
            closePart handle spoiled (.closed received) s.disk := by
        simp only [act, if_neg hrest]
      rw [step_of_act hstage hact]
      exact sound_closePart h hbusy hknows.1 id (own_closed hknows (not_lt.mp hrest))
  | failing handle =>
    rw [hstage] at hknows
    have hbusy : Busy (s.stage i) := by
      rw [hstage]
      trivial
    have hact : act sha shards announced temporary target (.close spoiled) (.failing handle)
        s.disk = closePart handle spoiled (.leaving (.error .osError)) s.disk := rfl
    rw [step_of_act hstage hact]
    exact sound_closePart h hbusy hknows id (own_of_not_busy id)
  | _ =>
    rw [step_of_stay hstage rfl]
    exact h

theorem sound_move (h : Sound shards temporary target s) :
    Sound shards temporary target (step sha shards announced temporary target s (i, .move)) := by
  have hknows := h.own i
  cases hstage : s.stage i with
  | closed received =>
    rw [hstage] at hknows
    have hbusy : Busy (s.stage i) := by
      rw [hstage]
      trivial
    by_cases hhash : sha.hexdigest received.flatten ≠ announced
    · have hact : act sha shards announced temporary target .move (.closed received) s.disk =
          (.leaving (.error (.runtimeError "reassembled model hash mismatch")), s.disk) := by
        simp only [act, movePart, if_pos hhash]
      rw [step_of_act hstage hact]
      exact sound_quiet h id False.elim
    · cases hentry : s.disk.entry temporary with
      | none =>
        have hrename := s.disk.rename_of_none hentry target
        have hact : act sha shards announced temporary target .move (.closed received) s.disk =
            (.leaving (.error .fileNotFound), s.disk) := by
          simp only [act, movePart, if_neg hhash, hrename]
        rw [step_of_act hstage hact]
        exact sound_quiet h id False.elim
      | some file =>
        obtain ⟨d, hrename, hcontent, hentries⟩ := s.disk.rename_of_some hentry target
        have hread : d.read target = some shards.flatten := by
          rw [Disk.read, hentries, Function.update_self, Option.map_some, hcontent,
            hknows.2 file hentry]
        have hothers := not_busy_of_busy h hbusy
        have hact : act sha shards announced temporary target .move (.closed received) s.disk =
            (.leaving (.ok ()), d) := by
          simp only [act, movePart, if_neg hhash, hrename]
        rw [step_of_act hstage hact]
        exact sound_update h False.elim (own_of_not_busy id)
          (fun j hj => own_of_not_busy (hothers j hj)) (fun _ => hread) (fun _ => hread)
  | _ =>
    rw [step_of_stay hstage rfl]
    exact h

theorem sound_unlink (hne : target ≠ temporary) (h : Sound shards temporary target s) :
    Sound shards temporary target (step sha shards announced temporary target s (i, .unlink)) := by
  have hdone := h.done i
  have hothers := fun j (_ : j ≠ i) => own_unlink hne (h.own j)
  have htarget : s.disk.read target = some shards.flatten →
      (s.disk.unlink temporary).read target = some shards.flatten :=
    fun hread => (read_unlink hne s.disk).trans hread
  cases hstage : s.stage i with
  | leaving result =>
    rw [hstage] at hdone
    cases result with
    | ok u =>
      have hact : act sha shards announced temporary target .unlink (.leaving (.ok u)) s.disk =
          (.reporting, s.disk.unlink temporary) := rfl
      rw [step_of_act hstage hact]
      exact sound_update h False.elim (own_of_not_busy id) hothers htarget
        (fun _ => htarget (hdone trivial))
    | error e =>
      have hact : act sha shards announced temporary target .unlink (.leaving (.error e)) s.disk =
          (.ended (.error e), s.disk.unlink temporary) := rfl
      rw [step_of_act hstage hact]
      exact sound_update h False.elim (own_of_not_busy id) hothers htarget False.elim
  | _ =>
    rw [step_of_stay hstage rfl]
    exact h

theorem sound_finish (h : Sound shards temporary target s) (result : Except PyError Unit) :
    Sound shards temporary target
      (step sha shards announced temporary target s (i, .finish result)) := by
  cases hstage : s.stage i with
  | reporting =>
    have hact : act sha shards announced temporary target (.finish result) .reporting s.disk =
        (.ended result, s.disk) := rfl
    rw [step_of_act hstage hact]
    refine sound_quiet h id (fun _ => ?_)
    rw [hstage]
    trivial
  | _ =>
    rw [step_of_stay hstage rfl]
    exact h

/-- What every step keeps, if an opening pull finds no other one busy. -/
theorem step_sound (hne : target ≠ temporary) (h : Sound shards temporary target s)
    (event : ι × Action) (hapart : event.2 = .openPart → s.stage event.1 = .waiting →
      ∀ j, ¬ Busy (s.stage j)) :
    Sound shards temporary target (step sha shards announced temporary target s event) := by
  obtain ⟨i, action⟩ := event
  cases action with
  | openPart => exact sound_open hne h (hapart rfl)
  | fetch count => exact sound_fetch h count
  | giveUp => exact sound_giveUp h
  | close spoiled => exact sound_close h spoiled
  | move => exact sound_move h
  | unlink => exact sound_unlink hne h
  | finish result => exact sound_finish h result
  | kill =>
    have hact : act sha shards announced temporary target .kill (s.stage i) s.disk =
        (.killed, s.disk) := by
      cases s.stage i <;> rfl
    rw [step_of_act rfl hact]
    exact sound_quiet h id False.elim

end Actions

section Runs

variable {sha} {shards} {announced} {temporary} {target}

/-- All pulls are about to open the temporary file. -/
def start (ι : Type) (d : Disk Path) : Shared ι := ⟨fun _ => .waiting, d⟩

omit [DecidableEq ι] in
theorem start_sound (d : Disk Path) : Sound shards temporary target (start ι d) :=
  ⟨fun _ _ h => h.elim, fun _ => trivial, fun _ h => h.elim⟩

theorem run_concat (s : Shared ι) (events : List (ι × Action)) (event : ι × Action) :
    run sha shards announced temporary target s (events ++ [event]) =
      step sha shards announced temporary target
        (run sha shards announced temporary target s events) event := by
  rw [run, List.foldl_append]
  rfl

theorem apart_cons {s : Shared ι} {event : ι × Action} {events : List (ι × Action)}
    (hfirst : event.2 = .openPart → s.stage event.1 = .waiting → ∀ j, ¬ Busy (s.stage j))
    (hrest : Apart sha shards announced temporary target
      (step sha shards announced temporary target s event) events) :
    Apart sha shards announced temporary target s (event :: events) := by
  intro before i hbefore
  cases before with
  | nil =>
    obtain rfl : (i, Action.openPart) = event := (List.cons_prefix_cons.mp hbefore).1
    exact hfirst rfl
  | cons first before =>
    obtain ⟨rfl, htail⟩ := List.cons_prefix_cons.mp hbefore
    exact hrest before i htail

/-- Steps that do not open the temporary file may come before any run. -/
theorem apart_append {s : Shared ι} {before after : List (ι × Action)}
    (hbefore : ∀ event ∈ before, event.2 ≠ .openPart)
    (hafter : Apart sha shards announced temporary target
      (run sha shards announced temporary target s before) after) :
    Apart sha shards announced temporary target s (before ++ after) := by
  induction before generalizing s with
  | nil => exact hafter
  | cons event before ih =>
    refine apart_cons (fun hopen => absurd hopen (hbefore event List.mem_cons_self)) ?_
    exact ih (fun other hother => hbefore other (List.mem_cons_of_mem _ hother)) hafter

theorem apart_nil (s : Shared ι) : Apart sha shards announced temporary target s [] := by
  intro before i hbefore
  simp at hbefore

theorem run_sound (hne : target ≠ temporary) {s : Shared ι} (h : Sound shards temporary target s)
    (events : List (ι × Action))
    (hapart : Apart sha shards announced temporary target s events) :
    Sound shards temporary target (run sha shards announced temporary target s events) := by
  induction events using List.reverseRecOn with
  | nil => exact h
  | append_singleton events event ih =>
    have hearlier : Apart sha shards announced temporary target s events :=
      fun before i hbefore => hapart before i (hbefore.trans (List.prefix_append _ _))
    rw [run_concat]
    refine step_sound hne (ih hearlier) event fun hopen => ?_
    refine hapart events event.1 ?_
    rw [← hopen]

/-- Whatever the order of their steps, as long as no pull opens the temporary file while another
one is busy with it, the target is the announced file whenever a pull has returned. -/
theorem returned_right {destination : Path} {modelId : String}
    (hannounced : announced = sha.hexdigest shards.flatten) (d : Disk Path)
    (events : List (ι × Action))
    (hapart : Apart sha shards announced (temporaryFile destination modelId)
      (targetFile destination modelId) (start ι d) events) (i : ι)
    (hreturned : (run sha shards announced (temporaryFile destination modelId)
      (targetFile destination modelId) (start ι d) events).stage i = .ended (.ok ())) :
    ∃ content, (run sha shards announced (temporaryFile destination modelId)
        (targetFile destination modelId) (start ι d) events).disk.read
          (targetFile destination modelId) = some content ∧
      sha.hexdigest content = announced := by
  have hsound := run_sound (PulledFiles.target_ne_temporary modelId destination) (start_sound d)
    events hapart
  have hmoved : Moved ((run sha shards announced (temporaryFile destination modelId)
      (targetFile destination modelId) (start ι d) events).stage i) := by
    rw [hreturned]
    trivial
  exact ⟨shards.flatten, hsound.done i hmoved, hannounced.symm⟩

end Runs

section Alone

variable {sha} {shards} {announced} {temporary} {target} {i : ι} {s s' : Shared ι} {k : ℕ}

/-- A pull has received the first shards, and only its file is another one than before. -/
def Received (shards : List Bytes) (temporary target : Path) (i : ι) (k : ℕ)
    (s s' : Shared ι) : Prop :=
  ∃ handle, s'.stage i = .receiving handle (shards.take k) ∧
    Own shards temporary target s'.disk (.receiving handle (shards.take k)) ∧
    s'.disk.entry temporary = some handle.file ∧
    ∀ path, path ≠ temporary → s'.disk.read path = s.disk.read path

theorem open_received (hne : target ≠ temporary) (hwaiting : s.stage i = .waiting) :
    Received shards temporary target i 0 s
      (step sha shards announced temporary target s (i, .openPart)) := by
  have hact : act sha shards announced temporary target .openPart .waiting s.disk =
      (.receiving ⟨(s.disk.openEmpty temporary).1, 0, []⟩ [], (s.disk.openEmpty temporary).2) :=
    rfl
  rw [step_of_act hwaiting hact]
  refine ⟨_, Function.update_self _ _ _, ⟨held_openEmpty hne _, List.nil_prefix, ?_, ?_⟩, ?_,
    fun path hpath => read_openEmpty hpath _⟩
  · rw [Disk.openEmpty_content, Function.update_self]
    rfl
  · rw [Disk.openEmpty_content, Function.update_self]
    rfl
  · rw [Disk.openEmpty_entry, Function.update_self]

theorem fetch_received (h : Received shards temporary target i k s s') (hk : k < shards.length)
    (count : ℕ) : Received shards temporary target i (k + 1) s
      (step sha shards announced temporary target s' (i, .fetch count)) := by
  obtain ⟨handle, hstage, hown, hentry, hothers⟩ := h
  have hchunk : shards[(shards.take k).length]? = some shards[k] := by
    rw [List.length_take_of_le hk.le, List.getElem?_eq_getElem hk]
  have htake : shards.take (k + 1) = shards.take k ++ [shards[k]] :=
    List.take_succ_eq_append_getElem hk
  have hact : act sha shards announced temporary target (.fetch count)
      (.receiving handle (shards.take k)) s'.disk =
        (.receiving ((handle.put shards[k]).flushed count) (shards.take (k + 1)),
          (handle.put shards[k]).flush count s'.disk) := by
    rw [htake]
    simp only [act, hchunk]
  rw [step_of_act hstage hact]
  refine ⟨_, Function.update_self _ _ _, ?_, hentry, fun path hpath => ?_⟩
  · rw [htake]
    exact own_fetch count hown hchunk
  · have hother : s'.disk.entry path ≠ some (handle.put shards[k]).file :=
      fun hfile => hpath (s'.disk.single path temporary _ hfile hentry)
    exact (read_flush hother count).trans (hothers path hpath)

theorem fetches_received (counts : List ℕ) (h : Received shards temporary target i k s s')
    (hk : k + counts.length ≤ shards.length) :
    Received shards temporary target i (k + counts.length) s
      (run sha shards announced temporary target s'
        (counts.map (fun count => (i, .fetch count)))) := by
  induction counts generalizing k s' with
  | nil => exact h
  | cons count counts ih =>
    rw [List.length_cons] at hk ⊢
    have hstep : Received shards temporary target i (k + 1) s
        (step sha shards announced temporary target s' (i, .fetch count)) :=
      fetch_received h (by omega) count
    have hrest := ih hstep (by omega)
    rwa [show k + 1 + counts.length = k + (counts.length + 1) by omega] at hrest

/-- The end of a pull that has received all shards. -/
theorem received_closed (hne : target ≠ temporary)
    (hannounced : announced = sha.hexdigest shards.flatten)
    (h : Received shards temporary target i shards.length s s') :
    (run sha shards announced temporary target s'
      [(i, .close none), (i, .move), (i, .unlink)]).stage i = .reporting ∧
    (run sha shards announced temporary target s'
      [(i, .close none), (i, .move), (i, .unlink)]).disk.read =
        Function.update (Function.update s.disk.read temporary none) target
          (some shards.flatten) := by
  obtain ⟨handle, hstage, hown, hentry, hothers⟩ := h
  rw [List.take_length] at hstage hown
  have hclose : act sha shards announced temporary target (.close none)
      (.receiving handle shards) s'.disk =
        (.closed shards, handle.flush handle.pending.length s'.disk) := by
    simp only [act, lt_irrefl, if_false, closePart]
  have hcontent := (own_closed hown le_rfl).2 handle.file hentry
  obtain ⟨d, hrename, hsame, hentries⟩ :=
    (handle.flush handle.pending.length s'.disk).rename_of_some hentry target
  have hmove : act sha shards announced temporary target .move (.closed shards)
      (handle.flush handle.pending.length s'.disk) = (.leaving (.ok ()), d) := by
    simp only [act, movePart, hannounced, ne_eq, not_true, if_false, hrename]
  have hunlink : act sha shards announced temporary target .unlink (.leaving (.ok ())) d =
      (.reporting, d.unlink temporary) := rfl
  have hclosed := step_of_act hstage hclose
  have hmoved : step sha shards announced temporary target
      ⟨Function.update s'.stage i (.closed shards), handle.flush handle.pending.length s'.disk⟩
      (i, .move) = ⟨_, d⟩ := step_of_act (Function.update_self _ _ _) hmove
  have hunlinked : step sha shards announced temporary target
      ⟨Function.update (Function.update s'.stage i (.closed shards)) i (.leaving (.ok ())), d⟩
      (i, .unlink) = ⟨_, d.unlink temporary⟩ := step_of_act (Function.update_self _ _ _) hunlink
  simp only [run, List.foldl_cons, List.foldl_nil]
  rw [hclosed, hmoved, hunlinked]
  refine ⟨Function.update_self _ _ _, funext fun path => ?_⟩
  change (Function.update d.entry temporary none path).map d.content = _
  by_cases htarget : path = target
  · rw [htarget, Function.update_self, Function.update_of_ne hne, hentries, Function.update_self,
      Option.map_some, hsame, hcontent]
  · rw [Function.update_of_ne htarget]
    by_cases htemporary : path = temporary
    · rw [htemporary, Function.update_self, Function.update_self, Option.map_none]
    · rw [Function.update_of_ne htemporary, Function.update_of_ne htemporary, hentries,
        Function.update_of_ne htarget, hsame, ← hothers path htemporary]
      have hother : s'.disk.entry path ≠ some handle.file :=
        fun hfile => htemporary (s'.disk.single path temporary _ hfile hentry)
      change (Function.update s'.disk.entry temporary none path).map _ = _
      rw [Function.update_of_ne htemporary]
      exact read_flush hother _

/-- The steps of a pull that nothing stops. -/
def steadyPull (i : ι) (counts : List ℕ) : List (ι × Action) :=
  (i, .openPart) :: (counts.map (fun count => (i, .fetch count)) ++
    [(i, .close none), (i, .move), (i, .unlink)])

/-- A pull on its own leaves the model at the target and no temporary file. -/
theorem steadyPull_run (hne : target ≠ temporary) (hwaiting : s.stage i = .waiting)
    (hannounced : announced = sha.hexdigest shards.flatten) (counts : List ℕ)
    (hcounts : counts.length = shards.length) :
    (run sha shards announced temporary target s (steadyPull i counts)).stage i = .reporting ∧
    (run sha shards announced temporary target s (steadyPull i counts)).disk.read =
      Function.update (Function.update s.disk.read temporary none) target
        (some shards.flatten) := by
  have hfetched : Received shards temporary target i (0 + counts.length) s
      (run sha shards announced temporary target
        (step sha shards announced temporary target s (i, .openPart))
        (counts.map (fun count => (i, .fetch count)))) :=
    fetches_received counts (open_received hne hwaiting) (by omega)
  rw [steadyPull, run, List.foldl_cons, List.foldl_append]
  exact received_closed hne hannounced (by rwa [Nat.zero_add, hcounts] at hfetched)

open JsonValues JsonText PyValues RaisingPrograms AccessRequests TelepathNodes PulledFiles PullRuns

/-- On its own a pull leaves the files that the whole program leaves. -/
theorem steadyPull_files {σ F : Type} [FloatText F] [FloatTime F] [FloatNumber F]
    [FloatConversion F] {node : Node F} {network : Network σ} {machine : Machine} {peer : String}
    {modelId : String} {w w₁ : World σ F} {members : Members F} {count : Json F} {nShards : ℤ}
    {u : Unit} (hcalm : ∀ tick, machine.spoiled tick = none) (destination : Path)
    (hmkdir : machine.mkdir (targetDirectory destination modelId) = .ok u)
    (hreceipts : LogWorks node) (hcount : item (.obj members) "n_shards" = .ok count)
    (hshards : toInt node.repr count = .ok nShards)
    (hfetches : Fetches node network peer modelId (.obj members) (List.range nShards.toNat) shards
      w w₁)
    (hconfirmed : Confirmed node (.obj members) shards.flatten)
    (hannounced : announced = sha.hexdigest shards.flatten) (hwaiting : s.stage i = .waiting)
    (counts : List ℕ) (hcounts : counts.length = shards.length)
    (hdisk : s.disk.read = w.files) :
    ∃ result w', pullSession node network machine peer modelId destination (.obj members) w =
        (.ok result, w') ∧
      (run sha shards announced (temporaryFile destination modelId)
        (targetFile destination modelId) s (steadyPull i counts)).disk.read = w'.files := by
  obtain ⟨result, w', hpull, -, -, hfiles⟩ :=
    pullSession_run hcalm destination hmkdir hreceipts hcount hshards hfetches hconfirmed
  refine ⟨result, w', hpull, ?_⟩
  rw [hfiles, ← hdisk]
  exact (steadyPull_run (target_ne_temporary modelId destination) hwaiting hannounced counts
    hcounts).2

end Alone

section Samples

def emptyDisk : Disk Path where
  entry := fun _ => none
  content := fun _ => []
  fresh := 0
  bound := fun _ _ h => by cases h
  single := fun _ _ _ h => by cases h

/-- The steps of one pull until its file is stored. -/
def firstPull : List (Bool × Action) :=
  [(true, .fetch 0), (true, .fetch 1), (true, .close none), (true, .move), (true, .unlink)]

/-- The other one goes on, and the first one returns. -/
def secondPull : List (Bool × Action) :=
  [(false, .fetch 1), (true, .finish (.ok ())), (false, .fetch 0), (false, .close none),
    (false, .move), (false, .unlink), (false, .finish (.ok ()))]

def samplePulls : List (Bool × Action) :=
  (true, .openPart) :: (firstPull ++ (false, .openPart) :: (secondPull ++ []))

theorem sample_apart : Apart Sha256.sample [[1], [2]] (Sha256.sample.hexdigest [1, 2])
    (temporaryFile ["d"] "m") (targetFile ["d"] "m") (start Bool emptyDisk) samplePulls := by
  refine apart_cons (fun _ _ _ => id) (apart_append (by simp [firstPull]) ?_)
  refine apart_cons (fun _ _ j => ?_) (apart_append (by simp [secondPull]) (apart_nil _))
  cases j
  · exact id
  · exact id

def sampleRun : Shared Bool :=
  run Sha256.sample [[1], [2]] (Sha256.sample.hexdigest [1, 2]) (temporaryFile ["d"] "m")
    (targetFile ["d"] "m") (start Bool emptyDisk) samplePulls

/-- Two pulls of a model of two shards that both return. -/
theorem returned_right_sample :
    sampleRun.stage false = .ended (.ok ()) ∧ sampleRun.stage true = .ended (.ok ()) ∧
    ∃ content, sampleRun.disk.read (targetFile ["d"] "m") = some content ∧
      Sha256.sample.hexdigest content = Sha256.sample.hexdigest [1, 2] := by
  have hfirst : sampleRun.stage true = .ended (.ok ()) := rfl
  exact ⟨rfl, hfirst, returned_right rfl emptyDisk samplePulls sample_apart true hfirst⟩

/-- Between the end of the `with` of one pull and its move another one opens the file. -/
def emptiedPull : List (Bool × Action) :=
  [(true, .openPart), (true, .fetch 0), (true, .close none), (false, .openPart), (true, .move),
    (true, .unlink), (true, .finish (.ok ()))]

/-- The first pull returns, and the target is empty. -/
theorem emptied_target :
    (run Sha256.sample [[1]] (Sha256.sample.hexdigest [1]) (temporaryFile ["d"] "m")
      (targetFile ["d"] "m") (start Bool emptyDisk) emptiedPull).stage true = .ended (.ok ()) ∧
    (run Sha256.sample [[1]] (Sha256.sample.hexdigest [1]) (temporaryFile ["d"] "m")
      (targetFile ["d"] "m") (start Bool emptyDisk) emptiedPull).disk.read
        (targetFile ["d"] "m") = some [] ∧
    Sha256.sample.hexdigest [] ≠ Sha256.sample.hexdigest [1] := by
  refine ⟨rfl, rfl, by decide +kernel⟩

end Samples

end Decillion.PullRaces
