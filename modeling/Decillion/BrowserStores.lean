import Decillion.BrowserReceipts
import Decillion.PyErrors
import Mathlib.Data.List.Induction
import Mathlib.Data.List.Nodup

/-!
The list of receipts in the page and its copy in the store of the browser. A creation adds to
the list, as an import does, and writes the whole list again; loading the page reads it back,
but not more than a thousand receipts, and stops before the handlers are set when a receipt
cannot be rendered.
-/
namespace Decillion.BrowserStores

open BrowserJson BrowserReceipts BrowserRoundTrip BrowserValues ByteText Primitives PyErrors

/-- What a handler throws, or what it says before it returns early. -/
inductive PageError where
  | fileTooLarge
  | tooManyRecords
  | invalidReceipt
  | syntaxError
  | typeError
deriving DecidableEq

/-- The text of the notice, where it is a text of the page. -/
def PageError.notice : PageError → String
  | .fileTooLarge => "File too large"
  | .tooManyRecords => "Too many records"
  | .invalidReceipt => "Invalid receipt"
  | .syntaxError => ""
  | .typeError => ""

/-- The text under the key of the store, the list in memory, and whether the script has come to
its end, so that the handlers are there. -/
structure Page (N : Type) where
  stored : Option JsString
  receipts : List (Value N)
  running : Bool

variable {N : Type} [JsNumber N]

mutual

/-- `String(v)` does not throw. It throws for an object with a `toString` of its own, which is no
function in JSON, and for an array that holds such an object at any depth of arrays. -/
def canPrint : Value N → Bool
  | .array items => canPrintItems items
  | .object members => (property "toString" (.object members)).isNone
  | _ => true

def canPrintItems : List (Value N) → Bool
  | [] => true
  | x :: xs => canPrint x && canPrintItems xs

end

/-- `x.slice(0,140)` does not throw, and what it returns can be the text of an element. -/
def hasSlice : Value N → Bool
  | .string _ => true
  | .array items => canPrint (.array (items.take 140))
  | _ => false

/-- `element.textContent=(text||'Receipt').slice(0,140)` does not throw. -/
def canSlice : Option (Value N) → Bool
  | none => true
  | some text => !truthy text || hasSlice text

/-- `r.body?.payload?.text` -/
def noteOf (r : Value N) : Option (Value N) :=
  ((property "body" r).bind (property "payload")).bind (property "text")

/-- The label of a receipt in the list and the line with its id can be made; `null` has no
property. -/
def canShow : Value N → Bool
  | .null => false
  | r => canSlice (noteOf r) && ((property "id" r).map canPrint).getD true

def render (receipts : List (Value N)) : Except PageError Unit :=
  if receipts.all canShow then .ok () else .error .typeError

/-- The list that a text in the store is read as. -/
def parseList (stored : Option JsString) : List (Value N) :=
  match parse (if stored.getD [] = [] then units "[]".toList else stored.getD []) with
  | some (.array items) => items
  | _ => []

def load (page : Page N) : Page N :=
  let receipts := (parseList page.stored).take 1000
  ⟨page.stored, receipts, (render receipts).isOk⟩

/-- The page that is loaded for the first time. -/
def start : Page N := load ⟨none, [], false⟩

def save (page : Page N) (receipts : List (Value N)) : Page N × Except PageError Unit :=
  (⟨some (stringify (.array receipts)), receipts, page.running⟩, render receipts)

/-- The id of the last receipt; a receipt without one makes `canon` throw. -/
def parents (receipts : List (Value N)) : Except PageError (List (Value N)) :=
  match receipts.getLast? with
  | none => .ok []
  | some .null => .error .typeError
  | some last =>
      match property "id" last with
      | some id => .ok [id]
      | none => .error .syntaxError

def literal (text : String) : Value N := .string (units text.toList)

def fields (entries : List (String × Value N)) : Value N :=
  .object (fromEntries (entries.map (fun entry => (units entry.1.toList, entry.2))))

/-- The body that `create` makes. -/
def newBody (text createdAt : JsString) (parents : List (Value N)) : Value N :=
  fields [("protocol", literal "i-receipt/0.1"), ("action", literal "user-note"),
    ("issuer", literal "browser-unverified"),
    ("payload", fields [("text", .string text), ("createdAt", .string createdAt)]),
    ("parents", .array parents), ("evidence", .array []),
    ("verification", fields [("integrity", literal "sha256-only"),
      ("authenticity", literal "not-established"), ("truth", literal "not-established")])]

variable (sha : Sha256)

def create (page : Page N) (text createdAt : JsString) : Page N × Except PageError Unit :=
  match parents page.receipts with
  | .error e => (page, .error e)
  | .ok parents =>
      match receiptId sha (newBody text createdAt parents) with
      | none => (page, .error .syntaxError)
      | some id => save page (page.receipts ++ [receipt id (newBody text createdAt parents)])

def checkReceipts : List (Value N) → Except PageError Unit
  | [] => .ok ()
  | r :: rest =>
      match verify sha r with
      | none => .error .syntaxError
      | some false => .error .invalidReceipt
      | some true => checkReceipts rest

/-- The records of a text: the items of an array, or the value itself. -/
def recordsOf (text : JsString) : Except PageError (List (Value N)) :=
  match parse text with
  | none => .error .syntaxError
  | some (.array items) => .ok items
  | some value => .ok [value]

/-- The receipts of a file, which has a size and a text, that passes the checks. -/
def importItems : Option (ℕ × JsString) → Except PageError (List (Value N))
  | none => .error .fileTooLarge
  | some (size, text) =>
      if 5000000 < size then .error .fileTooLarge
      else do
        let items ← recordsOf text
        if 500 < items.length then .error .tooManyRecords
        else do
          checkReceipts sha items
          return items

/-- `r.id`, which is a string where `verify` has returned true. -/
def idOf (r : Value N) : Option JsString :=
  match property "id" r with
  | some (.string id) => some id
  | _ => none

def isNull : Value N → Bool
  | .null => true
  | _ => false

/-- `receipts.map(r=>r.id)` -/
def idsOf (receipts : List (Value N)) : Except PageError (List (Option JsString)) :=
  if receipts.any isNull then .error .typeError else .ok (receipts.map idOf)

/-- The receipts whose ids are not known yet are pushed. -/
def pushNew : List (Option JsString) → List (Value N) → List (Value N) → List (Value N)
  | _, receipts, [] => receipts
  | ids, receipts, r :: rest =>
      if ids.contains (idOf r) then pushNew ids receipts rest
      else pushNew (idOf r :: ids) (receipts ++ [r]) rest

def importFile (page : Page N) (file : Option (ℕ × JsString)) :
    Page N × Except PageError Unit :=
  match importItems sha file with
  | .error e => (page, .error e)
  | .ok items =>
      match idsOf page.receipts with
      | .error e => (page, .error e)
      | .ok ids => save page (pushNew ids page.receipts items)

inductive Step where
  | create (text createdAt : JsString)
  | importFile (file : Option (ℕ × JsString))
  | reload

/-- Without its handlers the page does nothing but load again. -/
def step (page : Page N) : Step → Page N × Except PageError Unit
  | .reload => (load page, .ok ())
  | .create text createdAt =>
      if page.running then create sha page text createdAt else (page, .ok ())
  | .importFile file => if page.running then importFile sha page file else (page, .ok ())

def run (page : Page N) (steps : List Step) : Page N :=
  steps.foldl (fun page x => (step sha page x).1) page

section Invariant

/-- The id of a receipt is that of its body. -/
def Hashed (r : Value N) : Prop :=
  ∃ body id, property "body" r = some body ∧ idOf r = some id ∧ receiptId sha body = some id

/-- A page that can read back every receipt that it holds. -/
structure Kept (page : Page N) : Prop where
  running : page.running = true
  stored : page.stored = some (stringify (.array page.receipts)) ∨
    page.stored = none ∧ page.receipts = []
  wellFormed : ∀ r ∈ page.receipts, WellFormed r
  shown : ∀ r ∈ page.receipts, canShow r = true
  hashed : ∀ r ∈ page.receipts, Hashed sha r
  nodup : (page.receipts.map idOf).Nodup

theorem parseList_stringify {receipts : List (Value N)} (h : ∀ r ∈ receipts, WellFormed r) :
    parseList (some (stringify (.array receipts))) = receipts.map reread := by
  have hparse := parse_stringify (Value.array receipts) ((wellFormedItems_iff _).mpr h)
  obtain ⟨u, more, hcons, -⟩ := stringify_cons (Value.array receipts)
  have hne : stringify (Value.array receipts) ≠ [] := by
    rw [hcons]
    exact List.cons_ne_nil u more
  rw [parseList, Option.getD_some, if_neg hne, hparse, reread, rereadItems_eq]

theorem parseList_none : parseList (none : Option JsString) = ([] : List (Value N)) := rfl

/-- What the store holds is what the page holds. -/
theorem Kept.saved {page : Page N} (h : Kept sha page) :
    parseList page.stored = page.receipts.map reread := by
  rcases h.stored with hstored | ⟨hstored, hempty⟩
  · rw [hstored, parseList_stringify h.wellFormed]
  · rw [hstored, hempty]
    rfl

theorem kept_start : Kept sha (start : Page N) where
  running := rfl
  stored := Or.inr ⟨rfl, rfl⟩
  wellFormed := fun _ h => absurd h List.not_mem_nil
  shown := fun _ h => absurd h List.not_mem_nil
  hashed := fun _ h => absurd h List.not_mem_nil
  nodup := List.nodup_nil

end Invariant

section Imports

variable {sha}

end Imports

section Creations

variable {sha}

end Creations

section Digests

/-- The octets that are hashed for a text. -/
def message (text : JsString) : Bytes := encode (String.ofList (codePoints text))

end Digests

section Runs

/-- The messages that are hashed for the bodies in the list and for the one that is created. -/
def messages (page : Page N) : Step → Set Bytes
  | .create text createdAt => {m | ∃ body a, canon body = some a ∧ m = message a ∧
      ((∃ r ∈ page.receipts, property "body" r = some body) ∨
        ∃ previous, parents page.receipts = .ok previous ∧
          body = newBody text createdAt previous)}
  | _ => ∅

variable {sha}

theorem Kept.ids {page : Page N} (h : Kept sha page) : ∀ r ∈ page.receipts, idOf r ≠ none := by
  intro r hr
  obtain ⟨body, id, -, hid, -⟩ := h.hashed r hr
  rw [hid]
  exact Option.some_ne_none id

theorem run_concat (page : Page N) (before : List Step) (x : Step) :
    run sha page (before ++ [x]) = (step sha (run sha page before) x).1 := by
  simp only [run, List.foldl_append, List.foldl_cons, List.foldl_nil]

/-- A receipt with the same text is in the list. -/
def Holds (receipts : List (Value N)) (r : Value N) : Prop :=
  ∃ x ∈ receipts, stringify x = stringify r

variable {steps : List Step}

/-- The store holds every receipt that the list holds. -/
theorem Kept.holds {page : Page N} (h : Kept sha page) {r : Value N} (hr : Holds page.receipts r) :
    Holds (parseList page.stored) r := by
  obtain ⟨x, hx, htext⟩ := hr
  rw [h.saved]
  exact ⟨reread x, List.mem_map_of_mem hx, (stringify_reread x).trans htext⟩

end Runs

section Truncation

end Truncation

section Sample

end Sample

end Decillion.BrowserStores
