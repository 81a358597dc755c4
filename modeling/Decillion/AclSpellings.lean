import Decillion.AccessRequests
import Mathlib.Data.List.Induction
import Mathlib.Tactic.NormNum

/-!
The access control list and the spellings of a key. A key of 32 octets is given in
hexadecimal digits, in either letter case and with blanks between the pairs, and the list
compares texts. For a key that is spelled in one way the last call decides; a call that
spells it in another way does nothing for it.
-/
namespace Decillion.AclSpellings

open ByteText JsonValues JsonText JsonStrings Primitives Dictionaries AccessRequests

/-- A text that `allow` takes for a key. -/
structure KeyText where
  text : String
  bytes : Bytes
  decodes : fromHex text = some bytes
  length : bytes.length = 32

inductive ACLCall where
  | allow (modelId : String) (key : KeyText)
  | revoke (modelId : String) (key : KeyText)

namespace ACLCall

def modelId : ACLCall → String
  | allow modelId _ => modelId
  | revoke modelId _ => modelId

def key : ACLCall → KeyText
  | allow _ key => key
  | revoke _ key => key

def isAllow : ACLCall → Bool
  | allow _ _ => true
  | revoke _ _ => false

def apply (acl : ACL) : ACLCall → ACL
  | allow modelId key => acl.allow modelId key.text
  | revoke modelId key => acl.revoke modelId key.text

end ACLCall

/-- A new list after a run of calls. -/
def applied (calls : List ACLCall) : ACL := calls.foldl ACLCall.apply ⟨Dict.empty⟩

/-- The last call for a model that has a property. -/
def lastCall (calls : List ACLCall) (modelId : String) (p : KeyText → Bool) : Option ACLCall :=
  calls.reverse.find? (fun call => call.modelId = modelId ∧ p call.key)

/-- A spelling of the key that a text spells. -/
def spells (text : String) (key : KeyText) : Bool := fromHex key.text = fromHex text

/-- The last call for a model that names a key allows it. -/
def lastAllows (calls : List ACLCall) (modelId text : String) : Prop :=
  (lastCall calls modelId (spells text)).any ACLCall.isAllow = true

/-- The last call for a model that names the key of a text, if there is one, has that text. -/
def LastSpelled (calls : List ACLCall) (modelId text : String) : Prop :=
  ∀ call, lastCall calls modelId (spells text) = some call → call.key.text = text

section Lists

variable {acl : ACL} {modelId other text : String} {key : KeyText}

theorem lastCall_concat (calls : List ACLCall) (call : ACLCall) (p : KeyText → Bool) :
    lastCall (calls ++ [call]) modelId p =
      if call.modelId = modelId ∧ p call.key = true then some call
        else lastCall calls modelId p := by
  rw [lastCall, List.reverse_append, List.reverse_singleton, List.singleton_append, List.find?_cons]
  by_cases h : call.modelId = modelId ∧ p call.key = true
  · rw [if_pos h]
    simp [h.1, h.2]
  · rw [if_neg h, decide_eq_false h]
    rfl

theorem KeyText.valid (key : KeyText) : ACL.validKey key.text = true := by
  rw [ACL.validKey, key.decodes, Option.any_some, decide_eq_true key.length]

/-- A text is listed exactly when the last call with this text allows it. -/
theorem mem_listed_applied (calls : List ACLCall) (modelId text : String) :
    text ∈ (applied calls).listed modelId ↔
      (lastCall calls modelId (fun key => key.text = text)).any ACLCall.isAllow = true := by
  induction calls using List.reverseRecOn with
  | nil => simp [applied, ACL.listed, lastCall]
  | append_singleton calls call ih =>
    rw [lastCall_concat]
    have happlied : applied (calls ++ [call]) = call.apply (applied calls) := by
      rw [applied, List.foldl_concat]
      rfl
    rw [happlied]
    cases call with
    | allow model key =>
      rw [ACLCall.apply, ACL.mem_listed_allow _ _ _ key.valid, ih]
      by_cases hcall : model = modelId ∧ key.text = text
      · obtain ⟨rfl, rfl⟩ := hcall
        simp [ACLCall.modelId, ACLCall.key, ACLCall.isAllow]
      · have hother : ¬ (modelId = model ∧ text = key.text) := fun h => hcall ⟨h.1.symm, h.2.symm⟩
        rw [if_neg (fun h => hcall ⟨h.1, of_decide_eq_true h.2⟩)]
        simp only [hother, false_or]
    | revoke model key =>
      rw [ACLCall.apply, ACL.mem_listed_revoke, ih]
      by_cases hcall : model = modelId ∧ key.text = text
      · obtain ⟨rfl, rfl⟩ := hcall
        simp [ACLCall.modelId, ACLCall.key, ACLCall.isAllow]
      · have hother : ¬ (modelId = model ∧ text = key.text) := fun h => hcall ⟨h.1.symm, h.2.symm⟩
        rw [if_neg (fun h => hcall ⟨h.1, of_decide_eq_true h.2⟩)]
        simp only [hother, not_false_eq_true, true_and]

end Lists

section Spellings

variable {calls : List ACLCall} {modelId text : String}

/-- The first item with a property is the first one with a stronger property, if it has that. -/
theorem find?_of_imp {α : Type} {p q : α → Bool} (himp : ∀ x, q x = true → p x = true)
    {items : List α} {a : α} (hfind : items.find? p = some a) (ha : q a = true) :
    items.find? q = some a := by
  induction items with
  | nil => simp at hfind
  | cons x rest ih =>
    cases hx : p x with
    | true =>
      rw [List.find?_cons_of_pos hx] at hfind
      obtain rfl := Option.some.inj hfind
      exact List.find?_cons_of_pos ha
    | false =>
      rw [List.find?_cons_of_neg (by simp [hx])] at hfind
      have hq : q x ≠ true := fun h => by simp [himp x h] at hx
      rw [List.find?_cons_of_neg hq]
      exact ih hfind

/-- Where the last call that names the key has the text itself, the texts decide. -/
theorem lastCall_text (h : LastSpelled calls modelId text) :
    lastCall calls modelId (fun key => key.text = text) =
      lastCall calls modelId (spells text) := by
  have himp : ∀ call : ACLCall, decide (call.modelId = modelId ∧
      decide (call.key.text = text) = true) = true →
        decide (call.modelId = modelId ∧ spells text call.key = true) = true := by
    intro call hcall
    obtain ⟨hmodel, htext⟩ := of_decide_eq_true hcall
    refine decide_eq_true ⟨hmodel, ?_⟩
    rw [spells, of_decide_eq_true htext]
    exact decide_eq_true rfl
  cases hlast : lastCall calls modelId (spells text) with
  | none =>
    rw [lastCall, List.find?_eq_none] at hlast ⊢
    exact fun call hcall hfound => hlast call hcall (himp call hfound)
  | some call =>
    rw [lastCall] at hlast
    have hfound := List.find?_some hlast
    have hmodel := (of_decide_eq_true hfound).1
    have htext := h call hlast
    exact find?_of_imp himp hlast (decide_eq_true ⟨hmodel, decide_eq_true htext⟩)

end Spellings

variable {F : Type} [FloatText F] [FloatTime F]

omit [FloatText F] [FloatTime F] in
theorem key_of_signatureValid {ed : Ed25519} {key signature : String} {message : Bytes}
    (h : signatureValid ed key signature message = true) :
    ∃ bytes, fromHex key = some bytes ∧ bytes.length = 32 := by
  unfold signatureValid at h
  split at h
  · rename_i bytes _ hkey _
    rw [Bool.and_eq_true, decide_eq_true_eq] at h
    exact ⟨bytes, hkey, h.1⟩
  · simp at h

theorem signatureValid_of_accepted {ed : Ed25519} {now : ℚ} {req : AccessRequest F}
    (h : (verifyRequest ed now req).1 = true) :
    signatureValid ed req.requesterPubkey req.signature (canonical req.unsigned) = true := by
  unfold verifyRequest at h
  split at h
  · simp at h
  split at h
  · simp at h
  split at h
  · assumption
  · simp at h

/-- A request that passes its check is allowed exactly when the last call for the model or the
last call for all models that names its key was an `allow`, as long as these calls spell the key
as the request does. -/
theorem isAllowed_iff_last (ed : Ed25519) (now : ℚ) (req : AccessRequest F)
    (haccepted : (verifyRequest ed now req).1 = true) (calls : List ACLCall) (modelId : String)
    (hmodel : LastSpelled calls modelId req.requesterPubkey)
    (hall : LastSpelled calls "*" req.requesterPubkey) :
    (∃ key, fromHex req.requesterPubkey = some key ∧ key.length = 32) ∧
      ((applied calls).isAllowed modelId req.requesterPubkey = true ↔
        lastAllows calls modelId req.requesterPubkey ∨
          lastAllows calls "*" req.requesterPubkey) := by
  refine ⟨key_of_signatureValid (signatureValid_of_accepted haccepted), ?_⟩
  rw [ACL.isAllowed, Bool.or_eq_true, List.contains_iff_mem, List.contains_iff_mem,
    mem_listed_applied, mem_listed_applied, lastCall_text hmodel, lastCall_text hall, or_comm]
  rfl

section Samples

/-- Two spellings of one key. -/
def sampleKey : KeyText := ⟨hex (octets 32 10), octets 32 10, fromHex_hex _, octets_length 32 10⟩

def sampleUpper : String :=
  "000000000000000000000000000000000000000000000000000000000000000A"

theorem fromHex_sampleUpper : fromHex sampleUpper = some (octets 32 10) := by decide +kernel

def sampleOther : KeyText :=
  ⟨sampleUpper, octets 32 10, fromHex_sampleUpper, octets_length 32 10⟩

def sampleRequest : AccessRequest WholeFloat :=
  signRequest Ed25519.sample (octets 32 10) "m" "read" "0123456789abcdef" ⟨0⟩

theorem accepted_sampleRequest :
    (verifyRequest Ed25519.sample 0 sampleRequest).1 = true := by
  have hverify := verifyRequest_signRequest Ed25519.sample (octets 32 10) (octets_length 32 10) "m"
    "read" "0123456789abcdef" (⟨0⟩ : WholeFloat) (by decide) 0
    (decide_eq_false (by norm_num [maxSkew]))
  exact congrArg Prod.fst hverify

theorem isAllowed_iff_last_sample :
    (applied [.allow "m" sampleKey, .revoke "m" sampleKey]).isAllowed "m"
      sampleRequest.requesterPubkey = false := by
  have hlast := (isAllowed_iff_last Ed25519.sample 0 sampleRequest accepted_sampleRequest
    [.allow "m" sampleKey, .revoke "m" sampleKey] "m" (by
      intro call hcall
      have hmem := List.mem_reverse.mp (List.mem_of_find?_eq_some hcall)
      simp only [List.mem_cons, List.not_mem_nil, or_false] at hmem
      rcases hmem with rfl | rfl <;> rfl) (by
      intro call hcall
      have hmem := List.mem_reverse.mp (List.mem_of_find?_eq_some hcall)
      simp only [List.mem_cons, List.not_mem_nil, or_false] at hmem
      rcases hmem with rfl | rfl <;> rfl)).2
  rw [← Bool.not_eq_true, hlast]
  simp [lastAllows, lastCall, spells, ACLCall.modelId, ACLCall.isAllow, ACLCall.key, sampleKey,
    sampleRequest, signRequest, Ed25519.sample]

/-- A key that is revoked in another spelling is still allowed. -/
theorem revoked_key_allowed :
    ¬ ∀ (ed : Ed25519) (now : ℚ) (req : AccessRequest WholeFloat),
      (verifyRequest ed now req).1 = true → ∀ (calls : List ACLCall) (modelId : String),
        ((applied calls).isAllowed modelId req.requesterPubkey = true ↔
          lastAllows calls modelId req.requesterPubkey ∨
            lastAllows calls "*" req.requesterPubkey) := by
  intro hclaim
  have hiff := hclaim Ed25519.sample 0 sampleRequest accepted_sampleRequest
    [.allow "m" sampleKey, .revoke "m" sampleOther] "m"
  have hallowed : (applied [.allow "m" sampleKey, .revoke "m" sampleOther]).isAllowed "m"
      sampleRequest.requesterPubkey = true := by decide +kernel
  have hspells : spells sampleRequest.requesterPubkey sampleOther = true := by
    have htext : fromHex sampleRequest.requesterPubkey = some (octets 32 10) := fromHex_hex _
    rw [spells, htext]
    exact decide_eq_true fromHex_sampleUpper
  rcases hiff.mp hallowed with h | h
  · simp [lastAllows, lastCall, ACLCall.modelId, ACLCall.isAllow, ACLCall.key, hspells] at h
  · simp [lastAllows, lastCall, ACLCall.modelId] at h

end Samples

end Decillion.AclSpellings
