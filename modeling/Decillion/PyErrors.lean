import Decillion.Primitives
import Decillion.Programs

/-!
The exceptions of the language and of its libraries, and the decryption that raises them.
-/
namespace Decillion.PyErrors

open ByteText Primitives Programs

inductive PyError where
  | osError
  | fileNotFound
  | fileExists (message : String)
  | valueError (message : String)
  | runtimeError (message : String)
  | typeError
  | keyError
  | attributeError
  | indexError (index : ℤ)
  | invalidTag
  | integrityError
  | overflowError
  | memoryError
  | recursionError
  | incompleteRead
  | permissionError (message : String)
deriving DecidableEq

/-- A type of exceptions that has those of the language. -/
class PythonErrors (ε : Type) where
  python : PyError → ε

instance : PythonErrors PyError := ⟨id⟩

/-- The answer of an operation that may raise an exception. -/
def orRaise {Op : Type} {Resp : Op → Type} {ε α : Type} [PythonErrors ε]
    (x : Action Op Resp ε (Except PyError α)) : Action Op Resp ε α := do
  match ← x with
  | .ok a => return a
  | .error e => throw (PythonErrors.python e)

theorem only_orRaise {Op : Type} {Resp : Op → Type} {ε α : Type} [PythonErrors ε] {ok : Op → Prop}
    (x : Action Op Resp ε (Except PyError α)) (h : Only ok x) :
    Only ok (orRaise x : Action Op Resp ε α) := by
  apply only_then x _ h
  intro result
  cases result with
  | ok a => trivial
  | error e => trivial

theorem ok_bind {ε α β : Type} (a : α) (f : α → Except ε β) : (.ok a >>= f) = f a := rfl

theorem bind_eq_ok {ε α β : Type} {x : Except ε α} {f : α → Except ε β} {b : β}
    (h : (x >>= f) = .ok b) : ∃ a, x = .ok a ∧ f a = .ok b := by
  cases x with
  | error e => simp [bind, Except.bind] at h
  | ok a => exact ⟨a, rfl, h⟩

theorem map_eq_ok {ε α β : Type} {x : Except ε α} {f : α → β} {b : β} (h : x.map f = .ok b) :
    ∃ a, x = .ok a ∧ f a = b := by
  cases x with
  | error e => cases h
  | ok a => exact ⟨a, rfl, Except.ok.inj h⟩

/-- `AESGCM(key).decrypt(nonce, ciphertext, context)` -/
def aesDecrypt (aes : AesGcm) (key nonce ciphertext context : Bytes) : Except PyError Bytes :=
  if key.length ≠ 16 ∧ key.length ≠ 24 ∧ key.length ≠ 32 then
    .error (.valueError "AESGCM key must be 128, 192, or 256 bits.")
  else if nonce.length < 8 ∨ 128 < nonce.length then
    .error (.valueError "Nonce must be between 8 and 128 bytes")
  else match aes.decrypt key nonce ciphertext context with
    | none => .error .invalidTag
    | some plaintext => .ok plaintext

theorem aesDecrypt_encrypt (aes : AesGcm) (key nonce plaintext context : Bytes)
    (hkey : key.length = 32) (hnonce : nonce.length = 12) :
    aesDecrypt aes key nonce (aes.encrypt key nonce plaintext context) context =
      .ok plaintext := by
  rw [aesDecrypt, if_neg (by omega), if_neg (by omega),
    aes.decrypt_encrypt key nonce plaintext context hkey hnonce]

theorem decrypt_of_aesDecrypt {aes : AesGcm} {key nonce ciphertext context plaintext : Bytes}
    (h : aesDecrypt aes key nonce ciphertext context = .ok plaintext) :
    aes.decrypt key nonce ciphertext context = some plaintext := by
  unfold aesDecrypt at h
  split at h
  · cases h
  · split at h
    · cases h
    · split at h
      · cases h
      · rename_i found hfound
        exact Except.ok.inj h ▸ hfound

end Decillion.PyErrors
