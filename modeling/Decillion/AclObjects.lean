import Decillion.AccessRequests
import Decillion.TextFiles

/-!
Several objects for the access control list of one file. Each reads the file when it is
opened, answers from its own copy, and writes the whole copy back when it saves. As long as
every call goes through an object that nobody else has saved since it read the file or
last wrote it, the objects behave as one list; a call through another object answers from
an old list, or brings it back.
-/
namespace Decillion.AclObjects

open ByteText JsonValues JsonText JsonStrings Dictionaries TextFiles AccessRequests

section Files

variable (F : Type) [FloatText F]

def rulesJson (acl : ACL) : Json F :=
  .obj (acl.rules.entries.map (fun e => (e.1, .list (e.2.map Json.str))))

/-- What `save` writes. -/
def saved (acl : ACL) : Bytes := encode (dumpsSorted (indented 2) (rulesJson F acl) ++ "\n")

variable {F}

def textOf : Json F → Option String
  | .str text => some text
  | _ => none

def keysOf : Json F → Option (List String)
  | .list items => items.mapM textOf
  | _ => none

/-- The rules in a file of the form that `save` writes. -/
def rulesOf : Json F → Option ACL
  | .obj members => do
      let entries ← members.mapM (fun member =>
        (keysOf member.2).map (fun keys => (member.1, keys)))
      if h : (entries.map Prod.fst).Nodup then some ⟨⟨entries, h⟩⟩ else none
  | _ => none

variable (F) in
def load (content : Bytes) : Option ACL := ((readText content).bind (loads (F := F))).bind rulesOf

def byName (a b : String × List String) : Prop := a.1 ≤ b.1

instance : DecidableRel byName := fun a b => inferInstanceAs (Decidable (a.1 ≤ b.1))

instance : Std.Total byName := ⟨fun a b => le_total a.1 b.1⟩

instance : IsTrans (String × List String) byName := ⟨fun _ _ _ => le_trans⟩

omit [FloatText F] in
theorem mapM_textOf (keys : List String) :
    (keys.map (Json.str (F := F))).mapM textOf = some keys := by
  induction keys with
  | nil => rfl
  | cons key rest ih =>
    rw [List.map_cons, List.mapM_cons, ih]
    rfl

omit [FloatText F] in
theorem distinctKeys_keys (keys : List String) :
    DistinctKeys (.list (keys.map (Json.str (F := F)))) := by
  induction keys with
  | nil => exact trivial
  | cons key rest ih => exact ⟨trivial, ih⟩

omit [FloatText F] in
theorem sortItems_keys (keys : List String) :
    sortItems (keys.map (Json.str (F := F))) = keys.map Json.str := by
  induction keys with
  | nil => rfl
  | cons key rest ih => rw [List.map_cons, sortItems, ih, sortKeys]

omit [FloatText F] in
theorem sortKeys_rulesJson (acl : ACL) : sortKeys (rulesJson F acl) =
    .obj ((acl.rules.entries.insertionSort byName).map
      (fun e => (e.1, .list (e.2.map Json.str)))) := by
  have hmembers : sortMembers (acl.rules.entries.map
      (fun e => (e.1, Json.list (e.2.map (Json.str (F := F)))))) =
        acl.rules.entries.map (fun e => (e.1, Json.list (e.2.map Json.str))) := by
    rw [sortMembers_eq_map, List.map_map]
    apply List.map_congr_left
    intro e _
    simp only [Function.comp_apply, sortKeys, sortItems_keys]
  rw [rulesJson, sortKeys, hmembers]
  congr 1
  exact (List.map_insertionSort byName keyLe _ _ (fun _ _ _ _ => Iff.rfl)).symm

omit [FloatText F] in
theorem rulesOf_entries (entries : List (String × List String))
    (h : (entries.map Prod.fst).Nodup) :
    rulesOf (.obj (entries.map (fun e => (e.1, Json.list (e.2.map (Json.str (F := F))))))) =
      some ⟨⟨entries, h⟩⟩ := by
  have hentries : ∀ list : List (String × List String),
      (list.map (fun e => (e.1, Json.list (e.2.map (Json.str (F := F)))))).mapM
        (fun member => (keysOf member.2).map (fun keys => (member.1, keys))) = some list := by
    intro list
    induction list with
    | nil => rfl
    | cons e rest ih =>
      rw [List.map_cons, List.mapM_cons, ih, keysOf, mapM_textOf]
      rfl
  rw [rulesOf, hentries, Option.bind_eq_bind, Option.bind_some, dif_pos h]

/-- A list is read back with the same keys under every name. -/
theorem load_saved (acl : ACL) :
    ∃ acl', load F (saved F acl) = some acl' ∧ ∀ name, acl'.listed name = acl.listed name := by
  have hkeys : DistinctKeys (rulesJson F acl) := by
    refine ⟨?_, ?_⟩
    · rw [List.map_map]
      exact acl.rules.nodup
    · rw [distinctKeysMembers_iff]
      intro member hmember
      obtain ⟨e, -, rfl⟩ := List.mem_map.mp hmember
      exact distinctKeys_keys e.2
  have hperm := List.perm_insertionSort byName acl.rules.entries
  have hnodup : ((acl.rules.entries.insertionSort byName).map Prod.fst).Nodup := by
    rw [(hperm.map Prod.fst).nodup_iff]
    exact acl.rules.nodup
  refine ⟨⟨⟨_, hnodup⟩⟩, ?_, ?_⟩
  · rw [load, saved, dumpsSorted, loads_readText (indented 2) _ (sortKeys_distinctKeys _ hkeys),
      Option.bind_some, sortKeys_rulesJson, rulesOf_entries _ hnodup]
  · intro name
    rw [ACL.listed, ACL.listed]
    congr 1
    apply Option.ext
    intro keys
    rw [Dict.get?_eq_some_iff, Dict.get?_eq_some_iff]
    exact hperm.mem_iff

end Files

inductive Call where
  | opened
  | allow (object : ℕ) (modelId key : String)
  | revoke (object : ℕ) (modelId key : String)
  | isAllowed (object : ℕ) (modelId key : String)

/-- The file and the copies of the objects, in the order in which they were opened. -/
structure Shared where
  file : Option Bytes
  objects : List ACL

def Shared.start : Shared := ⟨none, []⟩

section Calls

variable (F : Type) [FloatText F]

/-- An object saves its copy after it has changed it. -/
def change (s : Shared) (object : ℕ) (f : ACL → ACL) : Shared :=
  match s.objects[object]? with
  | none => s
  | some acl => ⟨some (saved F (f acl)), s.objects.set object (f acl)⟩

/-- `ACL(path)` -/
def openAcl (s : Shared) : Shared :=
  match s.file with
  | none => ⟨some (saved F ⟨Dict.empty⟩), s.objects ++ [⟨Dict.empty⟩]⟩
  | some content =>
      match load F content with
      | none => s
      | some acl => ⟨some content, s.objects ++ [acl]⟩

def step (s : Shared) : Call → Shared
  | .opened => openAcl F s
  | .allow object modelId key =>
      if ACL.validKey key then change F s object (fun acl => acl.allow modelId key) else s
  | .revoke object modelId key => change F s object (fun acl => acl.revoke modelId key)
  | .isAllowed _ _ _ => s

def run (calls : List Call) : Shared := calls.foldl (step F) Shared.start

/-- What `is_allowed` answers on one of the objects. -/
def answer (s : Shared) (object : ℕ) (modelId key : String) : Option Bool :=
  (s.objects[object]?).map (fun acl => acl.isAllowed modelId key)

end Calls

/-- What a call says about a key and a model, an `allow` that raises an exception nothing. -/
def note (modelId key : String) (allowed : Bool) : Call → Bool
  | .allow _ name other =>
      if modelId = name ∧ key = other ∧ ACL.validKey other = true then true else allowed
  | .revoke _ name other => if modelId = name ∧ key = other then false else allowed
  | _ => allowed

/-- Whether the last call that said something about a key and a model allowed it. -/
def lastAllowed (modelId key : String) (calls : List Call) : Bool :=
  calls.foldl (note modelId key) false

/-- The objects that nobody else has saved since: a save makes all others out of date. -/
def mark (current : List Bool) : Call → List Bool
  | .opened => current ++ [true]
  | .allow object _ key =>
      if ACL.validKey key then (current.map (fun _ => false)).set object true else current
  | .revoke object _ _ => (current.map (fun _ => false)).set object true
  | .isAllowed _ _ _ => current

def current (calls : List Call) : List Bool := calls.foldl mark []

/-- The object whose copy a call uses. -/
def uses : Call → Option ℕ
  | .opened => none
  | .allow object _ key => if ACL.validKey key then some object else none
  | .revoke object _ _ => some object
  | .isAllowed object _ _ => some object

/-- Every call goes through an object that is up to date when it is made. -/
def orderly (current : List Bool) : List Call → Bool
  | [] => true
  | call :: rest =>
      (uses call).all (fun object => current[object]? = some true) &&
        orderly (mark current call) rest

section Runs

variable (F : Type) [FloatText F]

/-- A copy that says what the calls so far have said last. -/
def UpToDate (calls : List Call) (acl : ACL) : Prop :=
  ∀ modelId key, key ∈ acl.listed modelId ↔ lastAllowed modelId key calls = true

/-- The file and every object that is up to date say what has been said last. -/
structure Agrees (calls : List Call) (s : Shared) : Prop where
  length : s.objects.length = (current calls).length
  file : match s.file with
    | none => s.objects = [] ∧ UpToDate calls ⟨Dict.empty⟩
    | some content => ∃ acl, load F content = some acl ∧ UpToDate calls acl
  objects : ∀ (i : ℕ) acl, s.objects[i]? = some acl → (current calls)[i]? = some true →
    UpToDate calls acl

variable {F}

theorem agrees_start : Agrees F [] Shared.start where
  length := rfl
  file := ⟨rfl, by simp [UpToDate, ACL.listed, lastAllowed]⟩
  objects := by
    intro i acl h
    simp [Shared.start] at h

theorem lastAllowed_append (modelId key : String) (calls : List Call) (call : Call) :
    lastAllowed modelId key (calls ++ [call]) =
      note modelId key (lastAllowed modelId key calls) call := by
  simp [lastAllowed]

theorem current_append (calls : List Call) (call : Call) :
    current (calls ++ [call]) = mark (current calls) call := by
  simp [current]

theorem agrees_opened (calls : List Call) (s : Shared) (h : Agrees F calls s) :
    Agrees F (calls ++ [.opened]) (openAcl F s) := by
  have hlast : ∀ acl, UpToDate calls acl → UpToDate (calls ++ [.opened]) acl := by
    intro acl hacl modelId key
    rw [hacl modelId key, lastAllowed_append]
    rfl
  -- an object that is opened now reads what has been said last
  have hopened : ∀ content read acl, load F content = some read → UpToDate calls read →
      UpToDate calls acl → Agrees F (calls ++ [.opened]) ⟨some content, s.objects ++ [acl]⟩ := by
    intro content read acl hload hread hacl
    refine ⟨?_, ⟨read, hload, hlast read hread⟩, ?_⟩
    · rw [current_append, mark, List.length_append, List.length_append, h.length]
      rfl
    · intro i other hi hcurrent
      rw [current_append, mark] at hcurrent
      apply hlast
      by_cases hlt : i < s.objects.length
      · rw [List.getElem?_append_left (h.length ▸ hlt)] at hcurrent
        rw [List.getElem?_append_left hlt] at hi
        exact h.objects i other hi hcurrent
      · rw [List.getElem?_append_right (by omega), List.getElem?_singleton] at hi
        split at hi
        · rwa [← Option.some.inj hi]
        · simp at hi
  have hfile := h.file
  unfold openAcl
  cases hcontent : s.file with
  | none =>
    rw [hcontent] at hfile
    obtain ⟨read, hload, hlisted⟩ := load_saved (F := F) ⟨Dict.empty⟩
    have hread : UpToDate calls read := by
      intro modelId key
      rw [hlisted modelId]
      exact hfile.2 modelId key
    exact hopened _ read ⟨Dict.empty⟩ hload hread hfile.2
  | some content =>
    rw [hcontent] at hfile
    obtain ⟨acl, hload, hacl⟩ := hfile
    simp only [hload]
    exact hopened content acl acl hload hacl hacl

theorem agrees_change (calls : List Call) (call : Call) (s : Shared) (h : Agrees F calls s)
    (object : ℕ) (f : ACL → ACL) (hcurrent : (current calls)[object]? = some true)
    (hmark : mark (current calls) call = ((current calls).map (fun _ => false)).set object true)
    (hf : ∀ acl, UpToDate calls acl → UpToDate (calls ++ [call]) (f acl)) :
    Agrees F (calls ++ [call]) (change F s object f) := by
  have hlt : object < s.objects.length := by
    rw [h.length]
    exact (List.getElem?_eq_some_iff.mp hcurrent).1
  have hobject : s.objects[object]? = some s.objects[object] := List.getElem?_eq_getElem hlt
  have hacl := hf _ (h.objects object _ hobject hcurrent)
  obtain ⟨acl', hload, hlisted⟩ := load_saved (F := F) (f s.objects[object])
  rw [change, hobject]
  refine ⟨?_, ⟨acl', hload, ?_⟩, ?_⟩
  · rw [current_append, hmark, List.length_set, List.length_set, List.length_map, h.length]
  · intro modelId key
    rw [hlisted modelId]
    exact hacl modelId key
  · intro i other hi hother
    rw [current_append, hmark, List.getElem?_set] at hother
    rw [List.getElem?_set] at hi
    by_cases hsame : object = i
    · rw [if_pos hsame, if_pos hlt] at hi
      rwa [← Option.some.inj hi]
    · rw [if_neg hsame, List.getElem?_map] at hother
      cases hold : (current calls)[i]? with
      | none => simp [hold] at hother
      | some b => simp [hold] at hother

/-- A call that says nothing and saves nothing. -/
theorem agrees_silent (calls : List Call) (call : Call) (s : Shared) (h : Agrees F calls s)
    (hmark : mark (current calls) call = current calls)
    (hnote : ∀ modelId key allowed, note modelId key allowed call = allowed) :
    Agrees F (calls ++ [call]) s := by
  have hlast : ∀ acl, UpToDate calls acl → UpToDate (calls ++ [call]) acl := by
    intro acl hacl modelId key
    rw [hacl modelId key, lastAllowed_append, hnote]
  refine ⟨?_, ?_, ?_⟩
  · rw [current_append, hmark, h.length]
  · have hfile := h.file
    cases hcontent : s.file with
    | none =>
      rw [hcontent] at hfile
      exact ⟨hfile.1, hlast _ hfile.2⟩
    | some content =>
      rw [hcontent] at hfile
      obtain ⟨acl, hload, hacl⟩ := hfile
      exact ⟨acl, hload, hlast acl hacl⟩
  · intro i acl hi hcurrent
    rw [current_append, hmark] at hcurrent
    exact hlast acl (h.objects i acl hi hcurrent)

theorem agrees_step (calls : List Call) (call : Call) (s : Shared) (h : Agrees F calls s)
    (hcurrent : ∀ object ∈ uses call, (current calls)[object]? = some true) :
    Agrees F (calls ++ [call]) (step F s call) := by
  cases call with
  | opened => exact agrees_opened calls s h
  | allow object modelId key =>
    cases hvalid : ACL.validKey key with
    | true =>
      rw [step, hvalid, if_pos rfl]
      apply agrees_change calls _ s h object _ (hcurrent object (by simp [uses, hvalid]))
      · rw [mark, hvalid, if_pos rfl]
      · intro acl hacl name other
        rw [ACL.mem_listed_allow acl modelId key hvalid, hacl name other, lastAllowed_append, note]
        by_cases hnamed : name = modelId ∧ other = key
        · simp [hnamed, hvalid]
        · rw [if_neg (fun hall => hnamed ⟨hall.1, hall.2.1⟩), or_iff_right hnamed]
    | false =>
      rw [step, hvalid, if_neg (by simp)]
      apply agrees_silent calls _ s h
      · rw [mark, hvalid, if_neg (by simp)]
      · intro name other allowed
        rw [note, if_neg]
        rintro ⟨-, -, hother⟩
        rw [hvalid] at hother
        simp at hother
  | revoke object modelId key =>
    apply agrees_change calls _ s h object _ (hcurrent object rfl) rfl
    intro acl hacl name other
    rw [ACL.mem_listed_revoke, hacl name other, lastAllowed_append, note]
    by_cases hnamed : name = modelId ∧ other = key
    · simp [hnamed]
    · rw [if_neg hnamed, and_iff_right hnamed]
  | isAllowed object modelId key => exact agrees_silent calls _ s h rfl (fun _ _ _ => rfl)

theorem agrees_run (calls rest : List Call) (s : Shared) (h : Agrees F calls s)
    (horderly : orderly (current calls) rest = true) :
    Agrees F (calls ++ rest) (rest.foldl (step F) s) := by
  induction rest generalizing calls s with
  | nil => rwa [List.append_nil]
  | cons call rest ih =>
    rw [orderly, Bool.and_eq_true, Option.all_eq_true] at horderly
    obtain ⟨hcall, hrest⟩ := horderly
    have hstep := agrees_step calls call s h (fun object hobject => by
      simpa using hcall object hobject)
    rw [← current_append] at hrest
    have hrun := ih _ _ hstep hrest
    rwa [List.append_assoc] at hrun

theorem orderly_append (marks : List Bool) (calls rest : List Call) :
    orderly marks (calls ++ rest) =
      (orderly marks calls && orderly (calls.foldl mark marks) rest) := by
  induction calls generalizing marks with
  | nil => rfl
  | cons call others ih => rw [List.cons_append, orderly, orderly, ih, Bool.and_assoc]; rfl

end Runs

/-- In every run whose calls all go through objects that are up to date, the objects answer as
one list: a key is allowed when the last thing said about it, for the model or for all, was
that it is. -/
theorem isAllowed_iff_lastAllowed (F : Type) [FloatText F] (calls : List Call) (object : ℕ)
    (modelId key : String)
    (horderly : orderly [] (calls ++ [.isAllowed object modelId key]) = true) :
    answer (run F calls) object modelId key =
      some (lastAllowed modelId key calls || lastAllowed "*" key calls) := by
  rw [orderly_append, Bool.and_eq_true] at horderly
  obtain ⟨hcalls, hlast⟩ := horderly
  have hagrees := agrees_run [] calls Shared.start (agrees_start (F := F)) hcalls
  rw [List.nil_append] at hagrees
  have hcurrent : (current calls)[object]? = some true := by
    simpa [orderly, uses, current] using hlast
  have hlt : object < (run F calls).objects.length := by
    have hlength := hagrees.length
    have hbound := (List.getElem?_eq_some_iff.mp hcurrent).1
    rw [← hlength] at hbound
    exact hbound
  have hobject : (run F calls).objects[object]? = some (run F calls).objects[object] :=
    List.getElem?_eq_getElem hlt
  have hlisted := hagrees.objects object _ hobject hcurrent
  rw [answer, hobject, Option.map_some, Option.some.injEq, Bool.eq_iff_iff, ACL.isAllowed_iff,
    hlisted "*" key, hlisted modelId key, Bool.or_eq_true, or_comm]

def sampleKey : String := hex (List.replicate 32 7)

/-- Two processes that take turns, each opening the list anew. -/
def sampleCalls : List Call :=
  [.opened, .allow 0 "*" sampleKey, .opened, .revoke 1 "*" sampleKey, .opened,
    .allow 2 "m" sampleKey]

theorem isAllowed_iff_lastAllowed_sample :
    answer (run WholeFloat sampleCalls) 2 "m" sampleKey = some true := by
  rw [isAllowed_iff_lastAllowed WholeFloat sampleCalls 2 "m" sampleKey (by decide +kernel)]
  decide +kernel

/-- A node that has opened the list before keeps on allowing a key that was revoked. -/
def staleCalls : List Call :=
  [.opened, .opened, .allow 0 "m" sampleKey, .allow 1 "m" sampleKey, .revoke 0 "m" sampleKey]

theorem isAllowed_stale :
    ¬ ∀ (calls : List Call) (object : ℕ) (modelId key : String) (allowed : Bool),
      answer (run WholeFloat calls) object modelId key = some allowed →
      (allowed = true ↔ (lastAllowed modelId key calls || lastAllowed "*" key calls) = true) := by
  intro hclaim
  have hallowed := hclaim staleCalls 1 "m" sampleKey true (by decide +kernel)
  exact absurd hallowed (by decide +kernel)

end Decillion.AclObjects
