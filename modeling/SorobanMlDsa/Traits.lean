import SorobanMlDsa.ByteSlice

/-! The scheme-agnostic trait layer: errors, the shared length checks, and the
interface a signature scheme has to provide. -/
namespace SorobanMlDsa

open ByteSlice

inductive PqError
  | invalidLength (expected actual : ℕ)
  | bufferTooSmall (needed actual : ℕ)
  | malformedEncoding
  | contextTooLong (actual : ℕ)
  | verificationFailed
  | signingFailed
  deriving DecidableEq, Repr

/-- The FIPS 204 / FIPS 205 limit on the context string. -/
def maxContextLen : ℕ := 255

def checkContext (context : Bytes) : Except PqError Unit :=
  if maxContextLen < context.length then .error (.contextTooLong context.length) else .ok ()

def checkLen (actual expected : ℕ) : Except PqError Unit :=
  if actual ≠ expected then .error (.invalidLength expected actual) else .ok ()

theorem checkContext_ok {context : Bytes} (h : context.length ≤ maxContextLen) :
    checkContext context = .ok () := if_neg (by omega)

theorem checkContext_error {context : Bytes} (h : maxContextLen < context.length) :
    checkContext context = .error (.contextTooLong context.length) := if_pos h

@[simp] theorem checkLen_self (n : ℕ) : checkLen n n = .ok () := by simp [checkLen]

theorem checkLen_error {actual expected : ℕ} (h : actual ≠ expected) :
    checkLen actual expected = .error (.invalidLength expected actual) := if_pos h

section

variable {E A : Type} (panicked : Panic → E) (failed : E)

/-- `unwrap` on what a call returned, in a program whose failures are `E`. -/
def unwrapCall : Outcome (Except PqError A) → Except E A
  | .error p => .error (panicked p)
  | .ok (.error _) => .error failed
  | .ok (.ok a) => .ok a

/-- `unwrap` on what a call that fills a buffer returned; the buffer is kept. -/
def unwrapBuffer {k : ℕ} : Outcome (Except PqError ℕ × Arr k) → Except E (Arr k)
  | .error p => .error (panicked p)
  | .ok (.error _,_) => .error failed
  | .ok (.ok _,buf) => .ok buf

variable {panicked failed}

theorem unwrapBuffer_eq_ok {k : ℕ} {r : Outcome (Except PqError ℕ × Arr k)} {buf : Arr k} :
    unwrapBuffer panicked failed r = .ok buf ↔ ∃ n, r = .ok (.ok n,buf) := by
  match r with
  | .error p => simp [unwrapBuffer]
  | .ok (.error e,buf') => simp [unwrapBuffer]
  | .ok (.ok n,buf') => simp [unwrapBuffer]

end

/-- A value with a canonical byte form. Writing goes through a buffer of any
length `k`, which comes back with the result. -/
class PqEncode (α : Type) where
  encodedLen : α → ℕ
  writeTo : α → {k : ℕ} → Arr k → Outcome (Except PqError ℕ × Arr k)
  fromBytes : Bytes → Outcome (Except PqError α)

/-- The public half of a scheme. -/
class PqVerifier (α : Type) extends PqEncode α where
  verify : α → (message context signature : Bytes) → Outcome (Except PqError Unit)

/-- The secret half. `Derived` is the type behind `impl PqVerifier`. -/
class PqSigner (α : Type) extends PqEncode α where
  Derived : Type
  derivedVerifier : PqVerifier Derived
  signInto : α → (message context : Bytes) → {k : ℕ} → Arr k → Outcome (Except PqError ℕ × Arr k)
  verifyingKey : α → Derived

class PqKeypair (α : Type) (SigningKey VerifyingKey : outParam Type) where
  fromSeed : Bytes → Outcome (Except PqError α)
  signingKey : α → SigningKey
  verifyingKey : α → VerifyingKey

/-- A signature scheme: its constants and the three key types tied together. -/
structure PqScheme where
  name : String
  verifyingKeyLen : ℕ
  signingKeyLen : ℕ
  /-- A scheme with variable-length signatures reports its maximum. -/
  signatureLen : ℕ
  seedLen : ℕ
  VerifyingKey : Type
  SigningKey : Type
  Keypair : Type
  [verifier : PqVerifier VerifyingKey]
  [signer : PqSigner SigningKey]
  [keypair : PqKeypair Keypair SigningKey VerifyingKey]

attribute [instance] PqScheme.verifier PqScheme.signer PqScheme.keypair

/-- The shape every chain adapter takes: decode the key, verify under the empty
context, and answer `false` on any error. -/
def adapterShapedFunction (S : PqScheme) (vkBytes msg sig : Bytes) : Outcome Bool := do
  match ← (PqEncode.fromBytes vkBytes : Outcome (Except PqError S.VerifyingKey)) with
  | .error _ => return false
  | .ok vk =>
    match ← PqVerifier.verify vk msg [] sig with
    | .ok () => return true
    | .error _ => return false

theorem adapterShapedFunction_undecoded {S : PqScheme} {vkBytes : Bytes} {e : PqError}
    (h : (PqEncode.fromBytes vkBytes : Outcome (Except PqError S.VerifyingKey)) = .ok (.error e))
    (msg sig : Bytes) : adapterShapedFunction S vkBytes msg sig = .ok false := by
  simp only [adapterShapedFunction,h]
  rfl

theorem adapterShapedFunction_decoded {S : PqScheme} {vkBytes msg sig : Bytes} {vk : S.VerifyingKey}
    (h : PqEncode.fromBytes vkBytes = .ok (.ok vk)) {r : Except PqError Unit}
    (hv : PqVerifier.verify vk msg [] sig = .ok r) :
    adapterShapedFunction S vkBytes msg sig = .ok r.isOk := by
  simp only [adapterShapedFunction,h,ok_bind,hv]
  cases r <;> rfl

end SorobanMlDsa
