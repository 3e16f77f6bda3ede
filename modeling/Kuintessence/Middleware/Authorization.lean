import Kuintessence.Lib.Assoc
import Kuintessence.Lib.Effect
import Kuintessence.Lib.Text

namespace Kuintessence.Authorization

structure ResourceAccessItem where
  roles : List String
  deriving DecidableEq, Repr

structure Payload where
  iss : String
  sub : String
  preferredUsername : String
  resourceAccess : List (String × ResourceAccessItem)
  deriving DecidableEq, Repr

structure UserInfo where
  userId : String
  preferredUsername : String
  resourceAccess : List (String × ResourceAccessItem)
  deriving DecidableEq, Repr

def UserInfo.new (payload : Payload) : UserInfo :=
  ⟨payload.sub, payload.preferredUsername, payload.resourceAccess⟩

structure JwtValidationConfig where
  requiredSpecClaims : List String := ["exp"]
  leeway : UInt64 := 60
  validateExp : Bool := true
  validateNbf : Bool := false
  aud : Option (List String) := none
  iss : Option (List String) := none

inductive Algorithm where
  | hs256
  | rs256
  deriving DecidableEq, Repr

structure Validation where
  requiredSpecClaims : List String
  leeway : UInt64
  validateExp : Bool
  validateNbf : Bool
  aud : Option (List String)
  iss : Option (List String)
  algorithms : List Algorithm := [.hs256]
  validateSignature : Bool := true

def Validation.of (config : JwtValidationConfig) : Validation where
  requiredSpecClaims := config.requiredSpecClaims
  leeway := config.leeway
  validateExp := config.validateExp
  validateNbf := config.validateNbf
  aud := config.aud
  iss := config.iss

def Validation.insecureDisableSignatureValidation (v : Validation) : Validation :=
  { v with validateSignature := false }

structure Header where
  kid : Option String
  deriving DecidableEq, Repr

structure TokenData where
  header : Header
  claims : Payload
  deriving DecidableEq, Repr

inductive AlgorithmParameters where
  | rsa (n e : String)
  | ellipticCurve (x y : String)
  | octetKeyPair (x : String)
  | octetKey (value : String)
  deriving DecidableEq, Repr

structure Jwk where
  keyId : Option String
  algorithm : AlgorithmParameters
  deriving DecidableEq, Repr

-- What the libraries do, over their decoding keys.
structure Library (K : Type) where
  jwtDecode : String → K → Validation → Except String TokenData
  fromBase64Secret : String → Except String K
  fromRsaComponents : String → String → Except String K
  fromEcDer : List UInt8 → K
  fromEdDer : List UInt8 → K
  decodeBase64 : String → Except String (List UInt8)
  readJwkSet : String → Except String (List Jwk)
  wellKnownUrl : String → Except String String
  readWellKnown : String → Except String String

-- `send n url` is the answer to the request number `n`.
structure Env (K : Type) where
  lib : Library K
  config : JwtValidationConfig
  send : Nat → String → Except String String

-- The stored key sets by their issuers, unless the lock is poisoned.
structure Keys where
  storage : Option (List (String × String))
  requests : Nat := 0

abbrev Auth (K : Type) := Effect (Env K) Keys String

section

variable {K : Type}

def ofExcept {α : Type} (r : Except String α) : Auth K α := Effect.lift (Outcome.ofExcept r)

def KeyStorage.get (iss : String) : Auth K String := do
  let keys ← Effect.get
  match keys.storage with
  | none => Effect.throw "Unable to lock storage."
  | some storage =>
    match Assoc.get storage iss with
    | some x => pure x
    | none => Effect.throw "No such key."

def KeyStorage.insert (iss jwkSet : String) : Auth K Unit := do
  let keys ← Effect.get
  match keys.storage with
  | none => Effect.throw "Unable to lock storage."
  | some storage =>
    Effect.modify fun keys => { keys with storage := some (Assoc.insert storage iss jwkSet) }

def fetch (url : String) : Auth K String := do
  let env ← Effect.read
  let keys ← Effect.get
  Effect.modify fun keys => { keys with requests := keys.requests + 1 }
  ofExcept (env.send keys.requests url)

def reloadKeys (iss : String) : Auth K String := do
  let env ← Effect.read
  let issWellKnownUrl ← ofExcept (env.lib.wellKnownUrl iss)
  let wellKnown ← fetch issWellKnownUrl
  let jwksUri ← ofExcept (env.lib.readWellKnown wellKnown)
  let jwkSet ← fetch jwksUri
  KeyStorage.insert iss jwkSet
  pure jwkSet

def findKey (kid : String) (keys : List Jwk) : Option Jwk :=
  keys.find? fun x =>
    match x.keyId with
    | some id => id == kid
    | none => false

def decodingKey (lib : Library K) : AlgorithmParameters → Except String K
  | .rsa n e => lib.fromRsaComponents n e
  | .ellipticCurve x y => do
    let x ← lib.decodeBase64 x
    let y ← lib.decodeBase64 y
    .ok (lib.fromEcDer ((0x04 : UInt8) :: (x ++ y)))
  | .octetKeyPair x => do
    let x ← lib.decodeBase64 x
    .ok (lib.fromEdDer x)
  | .octetKey value => lib.fromBase64Secret value

def insecureDecode (env : Env K) (token : String) : Except String TokenData := do
  let key ← env.lib.fromBase64Secret "c2VjcmV0"
  env.lib.jwtDecode token key (Validation.of env.config).insecureDisableSignatureValidation

def secureDecode (env : Env K) (token : String) (key : K) : Except String TokenData :=
  env.lib.jwtDecode token key { Validation.of env.config with algorithms := [.rs256] }

def storedKeys (iss : String) : Auth K String := do
  let stored ← Effect.attempt (KeyStorage.get iss)
  match stored with
  | .ok x => pure x
  | .error _ => reloadKeys iss

def matchedKey (iss kid : String) : Auth K Jwk := do
  let env ← Effect.read
  let jwkSet ← storedKeys iss
  let keys ← ofExcept (env.lib.readJwkSet jwkSet)
  match findKey kid keys with
  | some x => pure x
  | none =>
    let jwkSet ← reloadKeys iss
    let keys ← ofExcept (env.lib.readJwkSet jwkSet)
    Effect.lift (.okOr "Public key isn't matched." (findKey kid keys))

def parseToken (token : String) (notValidate : Bool) : Auth K Payload := do
  let env ← Effect.read
  let data ← ofExcept (insecureDecode env token)
  if notValidate then pure data.claims
  else do
    let jwk ← matchedKey data.claims.iss (data.header.kid.getD "")
    let key ← ofExcept (decodingKey env.lib jwk.algorithm)
    let _ ← ofExcept (secureDecode env token key)
    pure data.claims

def splitWhitespace (text : String) : List String :=
  ((text.toList.splitOnP Text.isBlank).filter (· ≠ [])).map String.ofList

def bearerToken (parts : List String) : Outcome String String :=
  if parts.length < 2 then do
    let scheme ← .unwrap parts[0]?
    if scheme = "Bearer" then .unwrap parts[1]? else .err "Not Bearer Token."
  else .unwrap parts[1]?

def parseJwtTokenPayload (authorizationStr : String) (notValidate : Bool) : Auth K Payload := do
  let token ← Effect.lift (bearerToken (splitWhitespace authorizationStr))
  parseToken token notValidate

structure Request where
  path : String
  authorization : Option (Except String String)

def protectedPrefixs : List String := ["/workflow-engine/ReceiveNodeStatus"]

-- The user that a request goes on with.
def call (req : Request) (notValidate allControllers : Bool) : Auth K (Option UserInfo) :=
  if protectedPrefixs.any (fun el => el.toList.isPrefixOf req.path.toList) || allControllers then
    match req.authorization with
    | some (.ok value) => do
      let payload ← Effect.attempt (parseJwtTokenPayload value notValidate)
      match payload with
      | .ok x => pure (some (UserInfo.new x))
      | .error _ => pure none
    | some (.error _) => pure none
    | none => pure none
  else pure none

-- What the issuer answers to a reload, and the key that is looked for in it.
def answered (env : Env K) (n : Nat) (iss : String) : Except String String := do
  let issWellKnownUrl ← env.lib.wellKnownUrl iss
  let wellKnown ← env.send n issWellKnownUrl
  let jwksUri ← env.lib.readWellKnown wellKnown
  env.send (n + 1) jwksUri

def keyIn (env : Env K) (kid jwkSet : String) : Except String (Option Jwk) :=
  (env.lib.readJwkSet jwkSet).map (findKey kid)

-- The first set that is looked into, and how many requests went out by then.
def firstSet (env : Env K) (storage : List (String × String)) (n : Nat) (iss : String) :
    Except String (String × Nat) :=
  match Assoc.get storage iss with
  | some jwkSet => .ok (jwkSet, n)
  | none => (answered env n iss).map fun jwkSet => (jwkSet, n + 2)

def Chosen (env : Env K) (storage : List (String × String)) (n : Nat) (iss kid : String)
    (jwk : Jwk) : Prop :=
  ∃ jwkSet n', firstSet env storage n iss = .ok (jwkSet, n') ∧
    (keyIn env kid jwkSet = .ok (some jwk) ∨ keyIn env kid jwkSet = .ok none ∧
      ∃ renewed, answered env n' iss = .ok renewed ∧ keyIn env kid renewed = .ok (some jwk))

-- A key set of the issuer: the one that is stored, or one of its answers.
def KeySet (env : Env K) (w : Keys) (iss : String) (keys : List Jwk) : Prop :=
  ∃ jwkSet, ((∃ storage, w.storage = some storage ∧ Assoc.get storage iss = some jwkSet) ∨
    ∃ n, answered env n iss = .ok jwkSet) ∧ env.lib.readJwkSet jwkSet = .ok keys

structure Signed (env : Env K) (token : String) (header : Header) (p : Payload) (jwk : Jwk) : Prop where
  decoded : insecureDecode env token = .ok ⟨header, p⟩
  verified : ∃ key, decodingKey env.lib jwk.algorithm = .ok key ∧
    ∃ data, secureDecode env token key = .ok data

-- A token that goes through, whatever stands before it.
def Accepted (env : Env K) (w : Keys) (token : String) (p : Payload) : Prop :=
  ∃ header jwk storage, w.storage = some storage ∧
    Chosen env storage w.requests p.iss (header.kid.getD "") jwk ∧ Signed env token header p jwk

def Vouched (env : Env K) (w : Keys) (authorizationStr : String) (p : Payload) : Prop :=
  ∃ token, splitWhitespace authorizationStr = ["Bearer", token] ∧
    ∃ header keys jwk, KeySet env w p.iss keys ∧ jwk ∈ keys ∧
      jwk.keyId = some (header.kid.getD "") ∧ Signed env token header p jwk

def Guarded (env : Env K) (w : Keys) (authorizationStr : String) : Prop :=
  (parseJwtTokenPayload authorizationStr false env w).1 ≠ .panic ∧
    ∀ p, (parseJwtTokenPayload authorizationStr false env w).1 = .ok p →
      Vouched env w authorizationStr p

def Admissible (env : Env K) (w : Keys) (authorizationStr : String) : Prop :=
  (∃ part, splitWhitespace authorizationStr = [part] ∧ part ≠ "Bearer") ∨
  (∃ token, splitWhitespace authorizationStr = ["Bearer", token]) ∨
  ∃ scheme token rest, splitWhitespace authorizationStr = scheme :: token :: rest ∧
    ∀ p, ¬ Accepted env w token p

end

section

variable {K : Type} {env : Env K} {w w' : Keys} {iss kid jwkSet token url text : String} {jwk : Jwk}
variable {storage : List (String × String)} {p : Payload} {parts : List String}

theorem ofExcept_ok_iff {α : Type} {r : Except String α} {a : α} :
    (ofExcept r : Auth K α) env w = (.ok a, w') ↔ r = .ok a ∧ w' = w := by
  change (Outcome.ofExcept r, w) = _ ↔ _
  rw [Prod.mk.injEq, Outcome.ofExcept_ok_iff, @eq_comm _ w]

theorem KeyStorage.get_ok_iff : (KeyStorage.get iss : Auth K String) env w = (.ok jwkSet, w') ↔
    ∃ storage, w.storage = some storage ∧ Assoc.get storage iss = some jwkSet ∧ w' = w := by
  obtain ⟨stored, n⟩ := w
  cases stored with
  | none => exact iff_of_false (fun h => by cases h) fun ⟨_, h, _⟩ => nomatch h
  | some storage =>
    have hrun : (KeyStorage.get iss : Auth K String) env ⟨some storage, n⟩ =
        (match Assoc.get storage iss with
        | some x => (.ok x, ⟨some storage, n⟩)
        | none => (.err "No such key.", ⟨some storage, n⟩)) := by
      change (match Assoc.get storage iss with
        | some x => (pure x : Auth K String)
        | none => Effect.throw "No such key.") env ⟨some storage, n⟩ = _
      cases Assoc.get storage iss with
      | none => rfl
      | some x => rfl
    rw [hrun]
    cases hget : Assoc.get storage iss with
    | none =>
      refine iff_of_false (fun h => by cases h) ?_
      rintro ⟨_, hs, hget', -⟩
      cases hs
      rw [hget] at hget'
      cases hget'
    | some x =>
      constructor
      · intro h
        cases h
        exact ⟨storage, rfl, hget, rfl⟩
      · rintro ⟨_, hs, hget', rfl⟩
        cases hs
        rw [hget] at hget'
        cases hget'
        rfl

theorem fetch_ok_iff : fetch url env w = (.ok text, w') ↔
    env.send w.requests url = .ok text ∧ w' = { w with requests := w.requests + 1 } :=
  @ofExcept_ok_iff K env _ _ _ _ _

theorem KeyStorage.insert_ok_iff {u : Unit} :
    KeyStorage.insert iss jwkSet env w = (.ok u, w') ↔ ∃ storage, w.storage = some storage ∧
      w' = { w with storage := some (Assoc.insert storage iss jwkSet) } := by
  obtain ⟨stored, n⟩ := w
  cases stored with
  | none => exact iff_of_false (fun h => by cases h) fun ⟨_, h, _⟩ => nomatch h
  | some storage =>
    constructor
    · intro h
      cases h
      exact ⟨storage, rfl, rfl⟩
    · rintro ⟨_, hs, rfl⟩
      cases hs
      rfl

theorem except_bind_ok_iff {α β : Type} {r : Except String α} {f : α → Except String β} {b : β} :
    r >>= f = .ok b ↔ ∃ a, r = .ok a ∧ f a = .ok b := by
  cases r with
  | error e => exact iff_of_false (fun h => by cases h) fun ⟨_, h, _⟩ => nomatch h
  | ok a =>
    constructor
    · exact fun h => ⟨a, rfl, h⟩
    · rintro ⟨_, ha, h⟩
      cases ha
      exact h

theorem answered_ok_iff {n : Nat} : answered env n iss = .ok jwkSet ↔
    ∃ url, env.lib.wellKnownUrl iss = .ok url ∧ ∃ wellKnown, env.send n url = .ok wellKnown ∧
      ∃ uri, env.lib.readWellKnown wellKnown = .ok uri ∧ env.send (n + 1) uri = .ok jwkSet := by
  simp only [answered, except_bind_ok_iff]

theorem ofExcept_bind_ok_iff {α β : Type} {r : Except String α} {f : α → Auth K β} {b : β} :
    (ofExcept r >>= f) env w = (.ok b, w') ↔ ∃ a, r = .ok a ∧ f a env w = (.ok b, w') := by
  rw [Effect.bound_ok_iff]
  constructor
  · rintro ⟨a, _, hrun, h⟩
    obtain ⟨hr, rfl⟩ := ofExcept_ok_iff.mp hrun
    exact ⟨a, hr, h⟩
  · rintro ⟨a, hr, h⟩
    exact ⟨a, w, ofExcept_ok_iff.mpr ⟨hr, rfl⟩, h⟩

theorem fetch_bind_ok_iff {β : Type} {f : String → Auth K β} {b : β} :
    (fetch url >>= f) env w = (.ok b, w') ↔ ∃ text, env.send w.requests url = .ok text ∧
      f text env { w with requests := w.requests + 1 } = (.ok b, w') := by
  rw [Effect.bound_ok_iff]
  constructor
  · rintro ⟨text, _, hrun, h⟩
    obtain ⟨hr, rfl⟩ := fetch_ok_iff.mp hrun
    exact ⟨text, hr, h⟩
  · rintro ⟨text, hr, h⟩
    exact ⟨text, _, fetch_ok_iff.mpr ⟨hr, rfl⟩, h⟩

theorem insert_bind_pure_ok_iff :
    (KeyStorage.insert iss jwkSet >>= fun _ => pure jwkSet) env w = (.ok text, w') ↔
      ∃ storage, w.storage = some storage ∧ text = jwkSet ∧
        w' = { w with storage := some (Assoc.insert storage iss jwkSet) } := by
  rw [Effect.bound_ok_iff]
  constructor
  · rintro ⟨_, _, hr, h⟩
    obtain ⟨storage, hstorage, rfl⟩ := KeyStorage.insert_ok_iff.mp hr
    cases h
    exact ⟨storage, hstorage, rfl, rfl⟩
  · rintro ⟨storage, hstorage, rfl, rfl⟩
    exact ⟨(), _, KeyStorage.insert_ok_iff.mpr ⟨storage, hstorage, rfl⟩, rfl⟩

theorem reloadKeys_ok_iff : reloadKeys iss env w = (.ok jwkSet, w') ↔
    ∃ storage, w.storage = some storage ∧ answered env w.requests iss = .ok jwkSet ∧
      w' = ⟨some (Assoc.insert storage iss jwkSet), w.requests + 2⟩ := by
  have hrun : reloadKeys iss env w = (ofExcept (env.lib.wellKnownUrl iss) >>= fun url =>
      fetch url >>= fun wellKnown => ofExcept (env.lib.readWellKnown wellKnown) >>= fun uri =>
        fetch uri >>= fun jwkSet =>
          KeyStorage.insert iss jwkSet >>= fun _ => pure jwkSet) env w := rfl
  rw [hrun, answered_ok_iff]
  simp only [ofExcept_bind_ok_iff, fetch_bind_ok_iff, insert_bind_pure_ok_iff]
  constructor
  · rintro ⟨url, hurl, wellKnown, hfirst, uri, huri, set, hsecond, storage, hstorage, rfl, rfl⟩
    exact ⟨storage, hstorage, ⟨url, hurl, wellKnown, hfirst, uri, huri, hsecond⟩, rfl⟩
  · rintro ⟨storage, hstorage, ⟨url, hurl, wellKnown, hfirst, uri, huri, hsecond⟩, rfl⟩
    exact ⟨url, hurl, wellKnown, hfirst, uri, huri, jwkSet, hsecond, storage, hstorage, rfl, rfl⟩

theorem storedKeys_of_stored {n : Nat} (h : Assoc.get storage iss = some jwkSet) :
    storedKeys iss env ⟨some storage, n⟩ = (.ok jwkSet, ⟨some storage, n⟩) := by
  have hget : KeyStorage.get iss env ⟨some storage, n⟩ = (.ok jwkSet, ⟨some storage, n⟩) :=
    KeyStorage.get_ok_iff.mpr ⟨storage, rfl, h, rfl⟩
  have hattempt : (Effect.attempt (KeyStorage.get iss) : Auth K (Except String String)) env
      ⟨some storage, n⟩ = (.ok (.ok jwkSet), ⟨some storage, n⟩) := by
    rw [Effect.attempt, hget]
  exact Effect.bind_of_ok hattempt _

theorem storedKeys_of_unknown (h : ∀ storage, w.storage = some storage → Assoc.get storage iss = none) :
    storedKeys iss env w = reloadKeys iss env w := by
  obtain ⟨stored, n⟩ := w
  have hattempt : ∃ e, (Effect.attempt (KeyStorage.get iss) : Auth K (Except String String)) env
      ⟨stored, n⟩ = (.ok (.error e), ⟨stored, n⟩) := by
    cases stored with
    | none => exact ⟨_, rfl⟩
    | some storage =>
      refine ⟨"No such key.", ?_⟩
      have hget : KeyStorage.get iss env ⟨some storage, n⟩ =
          (.err "No such key.", ⟨some storage, n⟩) := by
        change (match Assoc.get storage iss with
          | some x => (pure x : Auth K String)
          | none => Effect.throw "No such key.") env ⟨some storage, n⟩ = _
        rw [h storage rfl]
        rfl
      rw [Effect.attempt, hget]
  obtain ⟨e, hattempt⟩ := hattempt
  exact Effect.bind_of_ok hattempt _

theorem firstSet_of_stored {n : Nat} (h : Assoc.get storage iss = some jwkSet) :
    firstSet env storage n iss = .ok (jwkSet, n) := by
  rw [firstSet, h]

theorem firstSet_of_unknown {n : Nat} (h : Assoc.get storage iss = none) :
    firstSet env storage n iss = (answered env n iss).map fun jwkSet => (jwkSet, n + 2) := by
  rw [firstSet, h]

theorem except_map_ok_iff {α β : Type} {r : Except String α} {f : α → β} {b : β} :
    r.map f = .ok b ↔ ∃ a, r = .ok a ∧ f a = b := by
  cases r with
  | error e => exact iff_of_false (fun h => by cases h) fun ⟨_, h, _⟩ => nomatch h
  | ok a =>
    constructor
    · intro h
      cases h
      exact ⟨a, rfl, rfl⟩
    · rintro ⟨_, ha, rfl⟩
      cases ha
      rfl

theorem storedKeys_sound (h : storedKeys iss env w = (.ok jwkSet, w')) :
    ∃ storage storage', w.storage = some storage ∧ w'.storage = some storage' ∧
      firstSet env storage w.requests iss = .ok (jwkSet, w'.requests) := by
  by_cases hstored : ∃ storage x, w.storage = some storage ∧ Assoc.get storage iss = some x
  · obtain ⟨storage, x, hstorage, hget⟩ := hstored
    obtain ⟨_, n⟩ := w
    cases hstorage
    rw [storedKeys_of_stored hget] at h
    cases h
    exact ⟨storage, storage, rfl, rfl, firstSet_of_stored hget⟩
  · have hunknown : ∀ storage, w.storage = some storage → Assoc.get storage iss = none := by
      intro storage hstorage
      cases hget : Assoc.get storage iss with
      | none => rfl
      | some x => exact absurd ⟨storage, x, hstorage, hget⟩ hstored
    rw [storedKeys_of_unknown hunknown] at h
    obtain ⟨storage, hstorage, hask, rfl⟩ := reloadKeys_ok_iff.mp h
    refine ⟨storage, _, hstorage, rfl, ?_⟩
    rw [firstSet_of_unknown (hunknown storage hstorage), hask]
    rfl

theorem storedKeys_complete {n n' : Nat} (h : firstSet env storage n iss = .ok (jwkSet, n')) :
    ∃ storage', storedKeys iss env ⟨some storage, n⟩ = (.ok jwkSet, ⟨some storage', n'⟩) := by
  cases hget : Assoc.get storage iss with
  | some x =>
    rw [firstSet_of_stored hget] at h
    cases h
    exact ⟨storage, storedKeys_of_stored hget⟩
  | none =>
    rw [firstSet_of_unknown hget] at h
    obtain ⟨set, hask, hset⟩ := except_map_ok_iff.mp h
    cases hset
    have hunknown : ∀ s, some storage = some s → Assoc.get s iss = none := by
      rintro s hs
      cases hs
      exact hget
    rw [storedKeys_of_unknown hunknown]
    exact ⟨_, reloadKeys_ok_iff.mpr ⟨storage, rfl, hask, rfl⟩⟩

theorem keyIn_ok_iff {found : Option Jwk} : keyIn env kid jwkSet = .ok found ↔
    ∃ keys, env.lib.readJwkSet jwkSet = .ok keys ∧ findKey kid keys = found := except_map_ok_iff

theorem matchedKey_ok_iff : (∃ w', matchedKey iss kid env w = (.ok jwk, w')) ↔
    ∃ storage, w.storage = some storage ∧ Chosen env storage w.requests iss kid jwk := by
  have hrun : ∀ w, matchedKey iss kid env w = (storedKeys iss >>= fun jwkSet =>
      ofExcept (env.lib.readJwkSet jwkSet) >>= fun keys =>
        (match findKey kid keys with
        | some x => pure x
        | none => reloadKeys iss >>= fun jwkSet => ofExcept (env.lib.readJwkSet jwkSet) >>= fun keys =>
            Effect.lift (.okOr "Public key isn't matched." (findKey kid keys)))) env w := fun _ => rfl
  constructor
  · rintro ⟨w', h⟩
    rw [hrun, Effect.bound_ok_iff] at h
    obtain ⟨jwkSet, w₁, hset, h⟩ := h
    obtain ⟨storage, storage', hstorage, hstorage', hfirst⟩ := storedKeys_sound hset
    obtain ⟨keys, hkeys, h⟩ := ofExcept_bind_ok_iff.mp h
    refine ⟨storage, hstorage, jwkSet, w₁.requests, hfirst, ?_⟩
    cases hfind : findKey kid keys with
    | some x =>
      rw [hfind] at h
      cases h
      exact .inl (keyIn_ok_iff.mpr ⟨keys, hkeys, hfind⟩)
    | none =>
      rw [hfind] at h
      obtain ⟨renewed, w₂, hreload, h⟩ := Effect.bound_ok_iff.mp h
      obtain ⟨_, -, hask, -⟩ := reloadKeys_ok_iff.mp hreload
      obtain ⟨keys', hkeys', h⟩ := ofExcept_bind_ok_iff.mp h
      have hfound := Outcome.okOr_ok_iff.mp (congrArg Prod.fst h)
      exact .inr ⟨keyIn_ok_iff.mpr ⟨keys, hkeys, hfind⟩, renewed, hask,
        keyIn_ok_iff.mpr ⟨keys', hkeys', hfound⟩⟩
  · rintro ⟨storage, hstorage, jwkSet, n', hfirst, hkey⟩
    obtain ⟨_, n⟩ := w
    cases hstorage
    obtain ⟨storage', hset⟩ := storedKeys_complete hfirst
    obtain hkey | ⟨hnone, renewed, hask, hkey⟩ := hkey
    · obtain ⟨keys, hkeys, hfind⟩ := keyIn_ok_iff.mp hkey
      refine ⟨⟨some storage', n'⟩, ?_⟩
      rw [hrun, Effect.bound_ok_iff]
      refine ⟨jwkSet, _, hset, ?_⟩
      refine ofExcept_bind_ok_iff.mpr ⟨keys, hkeys, ?_⟩
      rw [hfind]
      rfl
    · obtain ⟨keys, hkeys, hfind⟩ := keyIn_ok_iff.mp hnone
      obtain ⟨keys', hkeys', hfind'⟩ := keyIn_ok_iff.mp hkey
      have hreload := (@reloadKeys_ok_iff K env ⟨some storage', n'⟩ _ iss renewed).mpr
        ⟨storage', rfl, hask, rfl⟩
      refine ⟨⟨some (Assoc.insert storage' iss renewed), n' + 2⟩, ?_⟩
      rw [hrun, Effect.bound_ok_iff]
      refine ⟨jwkSet, _, hset, ?_⟩
      refine ofExcept_bind_ok_iff.mpr ⟨keys, hkeys, ?_⟩
      rw [hfind]
      refine Effect.bound_ok_iff.mpr ⟨renewed, _, hreload, ?_⟩
      refine ofExcept_bind_ok_iff.mpr ⟨keys', hkeys', ?_⟩
      rw [hfind']
      rfl

theorem parseToken_ok_iff : (∃ w', parseToken token false env w = (.ok p, w')) ↔
    Accepted env w token p := by
  have hrun : parseToken token false env w = (ofExcept (insecureDecode env token) >>= fun data =>
      matchedKey data.claims.iss (data.header.kid.getD "") >>= fun jwk =>
        ofExcept (decodingKey env.lib jwk.algorithm) >>= fun key =>
          ofExcept (secureDecode env token key) >>= fun _ => pure data.claims) env w := rfl
  rw [hrun]
  constructor
  · rintro ⟨w', h⟩
    obtain ⟨⟨header, claims⟩, hdecoded, h⟩ := ofExcept_bind_ok_iff.mp h
    obtain ⟨jwk, w₁, hkey, h⟩ := Effect.bound_ok_iff.mp h
    obtain ⟨key, hdecoding, h⟩ := ofExcept_bind_ok_iff.mp h
    obtain ⟨data, hsecure, h⟩ := ofExcept_bind_ok_iff.mp h
    cases h
    obtain ⟨storage, hstorage, hchosen⟩ := matchedKey_ok_iff.mp ⟨_, hkey⟩
    exact ⟨header, jwk, storage, hstorage, hchosen, hdecoded, key, hdecoding, data, hsecure⟩
  · rintro ⟨header, jwk, storage, hstorage, hchosen, hdecoded, key, hdecoding, data, hsecure⟩
    obtain ⟨w₁, hkey⟩ := matchedKey_ok_iff.mpr ⟨storage, hstorage, hchosen⟩
    refine ⟨w₁, ofExcept_bind_ok_iff.mpr ⟨⟨header, p⟩, hdecoded, ?_⟩⟩
    refine Effect.bound_ok_iff.mpr ⟨jwk, w₁, hkey, ?_⟩
    refine ofExcept_bind_ok_iff.mpr ⟨key, hdecoding, ?_⟩
    exact ofExcept_bind_ok_iff.mpr ⟨data, hsecure, rfl⟩

theorem panicless_ofExcept {α : Type} (r : Except String α) : Effect.Panicless (ofExcept r : Auth K α) :=
  fun _ _ => Outcome.ofExcept_ne_panic r

theorem panicless_get (iss : String) : Effect.Panicless (KeyStorage.get iss : Auth K String) := by
  refine Effect.panicless_get.bind fun keys => ?_
  cases keys.storage with
  | none => exact Effect.panicless_throw _
  | some storage =>
    change Effect.Panicless (match Assoc.get storage iss with
      | some x => (pure x : Auth K String)
      | none => Effect.throw "No such key.")
    cases Assoc.get storage iss with
    | none => exact Effect.panicless_throw _
    | some x => exact Effect.panicless_pure x

theorem panicless_insert (iss jwkSet : String) :
    Effect.Panicless (KeyStorage.insert iss jwkSet : Auth K Unit) := by
  refine Effect.panicless_get.bind fun keys => ?_
  cases keys.storage with
  | none => exact Effect.panicless_throw _
  | some storage => exact Effect.panicless_modify _

theorem panicless_fetch (url : String) : Effect.Panicless (fetch url : Auth K String) :=
  Effect.panicless_read.bind fun _ => Effect.panicless_get.bind fun _ =>
    (Effect.panicless_modify _).bind fun _ => panicless_ofExcept _

theorem panicless_reloadKeys (iss : String) : Effect.Panicless (reloadKeys iss : Auth K String) :=
  Effect.panicless_read.bind fun _ => (panicless_ofExcept _).bind fun url =>
    (panicless_fetch url).bind fun _ => (panicless_ofExcept _).bind fun uri =>
      (panicless_fetch uri).bind fun set => (panicless_insert iss set).bind fun _ =>
        Effect.panicless_pure set

theorem panicless_storedKeys (iss : String) : Effect.Panicless (storedKeys iss : Auth K String) := by
  refine (panicless_get iss).attempt.bind fun stored => ?_
  cases stored with
  | ok x => exact Effect.panicless_pure x
  | error e => exact panicless_reloadKeys iss

theorem panicless_matchedKey (iss kid : String) : Effect.Panicless (matchedKey iss kid : Auth K Jwk) := by
  refine Effect.panicless_read.bind fun env => (panicless_storedKeys iss).bind fun jwkSet =>
    (panicless_ofExcept _).bind fun keys => ?_
  cases findKey kid keys with
  | some x => exact Effect.panicless_pure x
  | none =>
    exact (panicless_reloadKeys iss).bind fun jwkSet => (panicless_ofExcept _).bind fun keys =>
      fun _ _ => Outcome.okOr_ne_panic _ _

theorem panicless_parseToken (token : String) (notValidate : Bool) :
    Effect.Panicless (parseToken token notValidate : Auth K Payload) := by
  refine Effect.panicless_read.bind fun env => (panicless_ofExcept _).bind fun data => ?_
  cases notValidate with
  | true => exact Effect.panicless_pure _
  | false =>
    exact (panicless_matchedKey _ _).bind fun jwk => (panicless_ofExcept _).bind fun key =>
      (panicless_ofExcept _).bind fun _ => Effect.panicless_pure _

theorem bearerToken_of_two {scheme token : String} {rest : List String}
    (h : parts = scheme :: token :: rest) : bearerToken parts = .ok token := by
  subst h
  have hlength : ¬ (scheme :: token :: rest).length < 2 := by
    rw [List.length_cons, List.length_cons]
    omega
  rw [bearerToken, if_neg hlength]
  rfl

theorem bearerToken_of_one {part : String} (h : parts = [part]) :
    bearerToken parts = if part = "Bearer" then .panic else .err "Not Bearer Token." := by
  subst h
  rfl

theorem bearerToken_of_none (h : parts = []) : bearerToken parts = .panic := by
  subst h
  rfl

theorem parse_of_token {str : String} (h : bearerToken (splitWhitespace str) = .ok token) :
    parseJwtTokenPayload str false env w = parseToken token false env w := by
  have hlift : (Effect.lift (bearerToken (splitWhitespace str)) : Auth K String) env w =
      (.ok token, w) := by rw [h]; rfl
  exact Effect.bind_of_ok hlift _

theorem parse_of_err {str e : String} (h : bearerToken (splitWhitespace str) = .err e) :
    parseJwtTokenPayload str false env w = (.err e, w) := by
  have hlift : (Effect.lift (bearerToken (splitWhitespace str)) : Auth K String) env w =
      (.err e, w) := by rw [h]; rfl
  exact Effect.bind_of_err hlift _

theorem parse_of_panic {str : String} (h : bearerToken (splitWhitespace str) = .panic) :
    (parseJwtTokenPayload str false env w).1 = .panic := by
  change (Effect.bind (Effect.lift (bearerToken (splitWhitespace str))) _ env w).1 = _
  rw [h]
  rfl

theorem findKey_mem {keys : List Jwk} (h : findKey kid keys = some jwk) :
    jwk ∈ keys ∧ jwk.keyId = some kid := by
  refine ⟨List.mem_of_find?_eq_some h, ?_⟩
  have hid := List.find?_some h
  obtain ⟨keyId, algorithm⟩ := jwk
  cases keyId with
  | none => cases hid
  | some id => exact congrArg some (eq_of_beq hid)

theorem Accepted.vouched {str : String} (h : Accepted env w token p)
    (hstr : splitWhitespace str = ["Bearer", token]) : Vouched env w str p := by
  obtain ⟨header, jwk, storage, hstorage, ⟨jwkSet, n', hfirst, hkey⟩, hsigned⟩ := h
  have hset : ∃ keys, KeySet env w p.iss keys ∧ findKey (header.kid.getD "") keys = some jwk := by
    obtain hkey | ⟨-, renewed, hask, hkey⟩ := hkey
    · obtain ⟨keys, hkeys, hfind⟩ := keyIn_ok_iff.mp hkey
      refine ⟨keys, ⟨jwkSet, ?_, hkeys⟩, hfind⟩
      cases hget : Assoc.get storage p.iss with
      | some x =>
        rw [firstSet_of_stored hget] at hfirst
        cases hfirst
        exact .inl ⟨storage, hstorage, hget⟩
      | none =>
        rw [firstSet_of_unknown hget] at hfirst
        obtain ⟨set, hask, hpair⟩ := except_map_ok_iff.mp hfirst
        cases hpair
        exact .inr ⟨_, hask⟩
    · obtain ⟨keys, hkeys, hfind⟩ := keyIn_ok_iff.mp hkey
      exact ⟨keys, ⟨renewed, .inr ⟨n', hask⟩, hkeys⟩, hfind⟩
  obtain ⟨keys, hkeys, hfind⟩ := hset
  obtain ⟨hmem, hid⟩ := findKey_mem hfind
  exact ⟨token, hstr, header, keys, jwk, hkeys, hmem, hid, hsigned⟩

theorem token_guarded_iff (env : Env K) (w : Keys) (authorizationStr : String) :
    Guarded env w authorizationStr ↔ Admissible env w authorizationStr := by
  have hruns : ∀ token, bearerToken (splitWhitespace authorizationStr) = .ok token →
      (Guarded env w authorizationStr ↔
        ∀ p, Accepted env w token p → Vouched env w authorizationStr p) := by
    intro token htoken
    rw [Guarded, parse_of_token htoken, and_iff_right (panicless_parseToken token false env w)]
    refine forall_congr' fun p => imp_congr_left ?_
    rw [← parseToken_ok_iff]
    exact ⟨fun h => ⟨_, Prod.ext h rfl⟩, fun ⟨_, h⟩ => congrArg Prod.fst h⟩
  rw [Admissible]
  match hparts : splitWhitespace authorizationStr with
  | [] =>
    have hpanic := @parse_of_panic K env w _ (bearerToken_of_none hparts)
    refine iff_of_false (fun h => h.1 hpanic) ?_
    rintro (⟨_, h, -⟩ | ⟨_, h⟩ | ⟨_, _, _, h, -⟩) <;> cases h
  | [part] =>
    have hbearer := bearerToken_of_one hparts
    by_cases hpart : part = "Bearer"
    · rw [if_pos hpart] at hbearer
      refine iff_of_false (fun h => h.1 (parse_of_panic hbearer)) ?_
      rintro (⟨_, h, hne⟩ | ⟨_, h⟩ | ⟨_, _, _, h, -⟩)
      · cases h
        exact hne hpart
      · cases h
      · cases h
    · rw [if_neg hpart] at hbearer
      have hrun := @parse_of_err K env w _ _ hbearer
      refine iff_of_true ⟨?_, fun p hp => ?_⟩ (.inl ⟨part, rfl, hpart⟩)
      · rw [hrun]
        exact Outcome.err_ne_panic _
      · rw [hrun] at hp
        cases hp
  | scheme :: token :: rest =>
    rw [hruns token (bearerToken_of_two hparts)]
    constructor
    · intro h
      by_cases hbearer : scheme = "Bearer" ∧ rest = []
      · obtain ⟨rfl, rfl⟩ := hbearer
        exact .inr (.inl ⟨token, rfl⟩)
      · refine .inr (.inr ⟨scheme, token, rest, rfl, fun p hp => hbearer ?_⟩)
        obtain ⟨_, hstr, -⟩ := h p hp
        rw [hparts] at hstr
        cases hstr
        exact ⟨rfl, rfl⟩
    · rintro (⟨_, h, -⟩ | ⟨_, h⟩ | ⟨_, _, _, h, hnot⟩) p hp
      · cases h
      · cases h
        exact hp.vouched hparts
      · cases h
        exact absurd hp (hnot p)

-- What a guarded header means for the request that carries it.
theorem Guarded.call {req : Request} {value : String} {allControllers : Bool}
    (hreq : req.authorization = some (.ok value)) (h : Guarded env w value) :
    (call req false allControllers env w).1 ≠ .panic ∧
      ∀ info, (call req false allControllers env w).1 = .ok (some info) →
        ∃ p, Vouched env w value p ∧ info = UserInfo.new p := by
  rw [Authorization.call]
  split
  · rw [hreq]
    change (Effect.bind (Effect.attempt (parseJwtTokenPayload value false)) _ env w).1 ≠ _ ∧
      ∀ info, (Effect.bind (Effect.attempt (parseJwtTokenPayload value false)) _ env w).1 = _ → _
    unfold Guarded at h
    unfold Effect.bind Effect.attempt
    generalize parseJwtTokenPayload value false env w = out at h ⊢
    obtain ⟨o, t⟩ := out
    cases o with
    | ok p =>
      refine ⟨Outcome.ok_ne_panic _, fun info hinfo => ?_⟩
      cases hinfo
      exact ⟨p, h.2 p rfl, rfl⟩
    | err e => exact ⟨Outcome.ok_ne_panic _, nofun⟩
    | panic => exact absurd rfl h.1
  · exact ⟨Outcome.ok_ne_panic _, nofun⟩

def alice : Payload where
  iss := "https://issuer"
  sub := "7"
  preferredUsername := "alice"
  resourceAccess := []

-- A library that knows one token, signed with the key of modulus `n`.
def knowing : Library String where
  jwtDecode token key v :=
    if token = "token" ∧ (v.validateSignature = false ∨ key = "n") then .ok ⟨⟨some "1"⟩, alice⟩
    else .error "InvalidToken"
  fromBase64Secret value := .ok value
  fromRsaComponents n _ := .ok n
  fromEcDer _ := ""
  fromEdDer _ := ""
  decodeBase64 _ := .error "InvalidByte"
  readJwkSet _ := .ok [⟨some "1", .rsa "n" "e"⟩]
  wellKnownUrl iss := .ok (iss ++ "/.well-known/openid-configuration")
  readWellKnown _ := .ok "https://issuer/keys"

def standing : Env String where
  lib := knowing
  config := {}
  send _ _ := .ok ""

def knownKeys : Keys where
  storage := some [("https://issuer", "")]

theorem header_unguarded : ¬ Guarded standing knownKeys "" ∧
    ¬ Guarded standing knownKeys "Bearer" ∧ ¬ Guarded standing knownKeys "Basic token" := by
  refine ⟨fun h => h.1 (parse_of_panic ?_), fun h => h.1 (parse_of_panic ?_), fun h => ?_⟩
  · decide +kernel
  · decide +kernel
  · have hwords : splitWhitespace "Basic token" = ["Basic", "token"] := by decide +kernel
    have hrun : (parseJwtTokenPayload "Basic token" false standing knownKeys).1 = .ok alice := by
      rw [parse_of_token (bearerToken_of_two hwords)]
      rfl
    obtain ⟨token, hstr, -⟩ := h.2 alice hrun
    rw [hwords] at hstr
    exact absurd (List.cons.inj hstr).1 (by decide)

end

end Kuintessence.Authorization
