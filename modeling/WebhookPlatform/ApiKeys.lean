/-
  WebhookPlatform.ApiKeys
  **API KEYS AND THEIR ROTATION FAMILIES**: `create_api_key`, `rotate_api_key`
  and `revoke_api_key`, one SQL statement at a time, and
  `get_api_key_project`.

  A rotation locks the key it replaces, looks for a replacement that is there
  already, and inserts one that points back to the key:

      root ◄── replacement ◄── replacement          (rotated_from_id)
      rotation_family_id is the public id of the root, in all of them

  Two rotations of one key wait for each other's lock, so the second one finds
  the replacement of the first.  `KeyRing.Families` says that the keys of a
  family form one chain; `ApiKey.Ages` says what may still happen to a key:
  its end comes nearer, it is revoked, and neither is taken back.

  Conventions of the embedding:

    • the random parts of a new key are drawn with the call,
    • an insert takes an exclusive lock on its entries of the two unique
      indexes,
    • `now` is the time at which the transaction starts,
    • memberships, organizations and projects change at any moment.
-/
import WebhookPlatform.Authorization

namespace WebhookPlatform

open Relational Transition RowLocks Exceptions List Option

/-! ## §1. Keys. -/

/-- The key settings of `Settings`. -/
structure KeySettings where
  apiKeyDefaultTtlDays : Nat := 90
  apiKeyRotationOverlapSeconds : Nat := 300
  deriving DecidableEq, Repr

/-- `api_keys`. -/
structure ApiKey where
  id : Nat
  publicId : Uuid
  projectId : Nat
  name : String
  keyPrefix : String
  keyDigest : String
  scopes : List String
  expiresAt : Option Time
  rotationFamilyId : Uuid
  rotatedFromId : Option Nat := none
  isActive : Bool := true
  createdAt : Time
  revokedAt : Option Time := none
  deriving DecidableEq

namespace ApiKey

/-- `expires_at is not None and expires_at <= now`. -/
def expired (k : ApiKey) (now : Time) : Bool := k.expiresAt.any fun t => decide (t ≤ now)

/-- Revoked or expired, as `rotate_api_key` and `get_api_key_project` test it. -/
def dead (k : ApiKey) (now : Time) : Bool := !k.isActive || k.revokedAt.isSome || k.expired now

/-- What `revoke_api_key` assigns. -/
def revoked (k : ApiKey) (now : Time) : ApiKey :=
  { k with isActive := false, revokedAt := k.revokedAt.or (some now) }

/-- What `rotate_api_key` assigns to the key that is replaced. -/
def overlapped (k : ApiKey) (overlapUntil : Time) : ApiKey :=
  match k.expiresAt with
  | none => { k with expiresAt := some overlapUntil }
  | some t => if overlapUntil < t then { k with expiresAt := some overlapUntil } else k

end ApiKey

/-- `_validate_scopes`. -/
def validateScopes (scopes : List String) : Except AppError (List String) :=
  if scopes = [] ∨ ¬ scopes.Nodup then
    .error (.validation "API key scopes must be unique and non-empty")
  else if scopes.any (fun scope => decide (scope ≠ "events:write")) then
    .error (.validation "Unsupported API key scope")
  else .ok scopes

/-- `_api_key_expiry`. -/
def apiKeyExpiry (s : KeySettings) (now : Time) (expiresInDays : Option Int) :
    Except AppError Time :=
  let days := expiresInDays.getD s.apiKeyDefaultTtlDays
  if ¬ (1 ≤ days ∧ days ≤ 3650) then .error (.validation "API key expiration is invalid")
  else .ok (now + days * 86400)

/-- `now + timedelta(seconds=overlap)`. -/
def overlapDeadline (s : KeySettings) (now : Time) (overlapSeconds : Option Int) :
    Except AppError Time :=
  let overlap := overlapSeconds.getD s.apiKeyRotationOverlapSeconds
  if ¬ (1 ≤ overlap ∧ overlap ≤ 86400) then
    .error (.validation "API key rotation overlap is invalid")
  else .ok (now + overlap)

/-! ## §2. Transactions. -/

/-- The tables, and the clock. -/
structure KeyRing where
  clock : Time
  registry : Registry := {}
  keys : Serial ApiKey ApiKey.id := Serial.empty

/-- The random parts of a new key: its public id, and the plaintexts with
their prefixes that `generate_api_key` returns one after the other. -/
structure KeyDraw where
  publicId : Uuid
  plaintexts : List (String × String)
  deriving DecidableEq, Repr

inductive KeyOperation where
  | create (name : String) (scopes : Option (List String)) (expiresInDays : Option Int)
      (draw : KeyDraw)
  | rotate (keyId : Uuid) (overlapSeconds : Option Int) (draw : KeyDraw)
  | revoke (keyId : Uuid)
  deriving DecidableEq, Repr

/-- A request. -/
structure KeyCall where
  actor : Nat
  projectId : Uuid
  operation : KeyOperation
  deriving DecidableEq, Repr

/-- What can be locked. -/
inductive KeyLock where
  /-- A row of `api_keys`. -/
  | key (id : Nat)
  /-- An entry of the unique index on `public_id`. -/
  | publicId (id : Uuid)
  /-- An entry of the unique index on `key_prefix`. -/
  | keyPrefix (text : String)
  deriving DecidableEq, Repr

/-- The states of the transactions: each names the statement that comes
next, and carries what the transaction has read. -/
inductive KeyTxn where
  | authorize (c : KeyCall) (now : Time)
  | projectRole (c : KeyCall) (now : Time) (v : VisibleProject)
  | revokeSelect (keyId : Uuid) (now : Time) (project : Project)
  | revokeWrite (key : ApiKey) (now : Time)
  | rotateSelect (keyId : Uuid) (overlapSeconds : Option Int) (draw : KeyDraw) (now : Time)
      (project : Project)
  | rotateSuccessor (previous : ApiKey) (overlapSeconds : Option Int) (draw : KeyDraw) (now : Time)
      (project : Project)
  /-- `_generate_unique_api_key`, with the plaintexts that are left; `key` is
  the row to be inserted without them. -/
  | generate (key : ApiKey) (plaintexts : List (String × String))
      (previous : Option (ApiKey × Option Int)) (expiresInDays : Option Int)
  | insert (key : ApiKey) (previous : Option (ApiKey × Time))
  | write (key : ApiKey) (previous : Option (ApiKey × Time))
  | leave (r : Except AppError Unit)
  | returned (r : Except AppError Unit)

/-- Go on with the result, or leave with the exception. -/
def KeyTxn.orLeave {α : Type} (r : Except AppError α) (next : α → KeyTxn) : KeyTxn :=
  match r with
  | .error e => .leave (.error e)
  | .ok a => next a

/-- The key of the project with this public id. -/
def KeyRing.keyOf (d : KeyRing) (project : Project) (keyId : Uuid) : Option ApiKey :=
  d.keys.rows.find? fun k => decide (k.projectId = project.id) && decide (k.publicId = keyId)

/-- What an operation does first with its project. -/
def KeyCall.enter (c : KeyCall) (now : Time) (project : Project) : KeyTxn :=
  match c.operation with
  | .create name scopes expiresInDays draw =>
    .orLeave (validateScopes (scopes.getD ["events:write"])) fun scopes =>
      .generate
        { id := 0, publicId := draw.publicId, projectId := project.id, name := name
          keyPrefix := "", keyDigest := "", scopes := scopes, expiresAt := none
          rotationFamilyId := draw.publicId, createdAt := now }
        (draw.plaintexts.take 5) none expiresInDays
  | .rotate keyId overlapSeconds draw => .rotateSelect keyId overlapSeconds draw now project
  | .revoke keyId => .revokeSelect keyId now project

/-- The checks of `rotate_api_key` on the key that is to be replaced, and the
replacement without its secret. -/
def rotation (previous : ApiKey) (overlapSeconds : Option Int) (draw : KeyDraw) (now : Time)
    (project : Project) : KeyTxn :=
  if previous.dead now then .leave (.error (.conflict "Only an active API key can be rotated"))
  else
    .orLeave (validateScopes previous.scopes) fun scopes =>
      .generate
        { id := 0, publicId := draw.publicId, projectId := project.id
          name := previous.name, keyPrefix := "", keyDigest := "", scopes := scopes
          expiresAt := none, rotationFamilyId := previous.rotationFamilyId
          rotatedFromId := some previous.id, createdAt := now }
        (draw.plaintexts.take 5) (some (previous, overlapSeconds)) none

/-- The row is complete once its plaintext is drawn. -/
def drawn (s : KeySettings) (digest : String → String) (key : ApiKey)
    (plaintext : String × String) (previous : Option (ApiKey × Option Int))
    (expiresInDays : Option Int) : KeyTxn :=
  .orLeave (apiKeyExpiry s key.createdAt expiresInDays) fun expiresAt =>
    let key := { key with
      keyPrefix := plaintext.2, keyDigest := digest plaintext.1, expiresAt := some expiresAt }
    match previous with
    | none => .insert key none
    | some (previous, overlapSeconds) =>
      .orLeave (overlapDeadline s key.createdAt overlapSeconds) fun overlapUntil =>
        .insert key (some (previous, overlapUntil))

/-- What the commit of a new key writes. -/
def KeyRing.inserted (key : ApiKey) (previous : Option (ApiKey × Time)) (d : KeyRing) : KeyRing :=
  let keys := match previous with
    | none => d.keys
    | some (previous, overlapUntil) => d.keys.put (previous.overlapped overlapUntil)
  { d with keys := keys.append fun id => { key with id := id } }

/-- The next statement of each transaction. -/
def KeyTxn.stmt (s : KeySettings) (digest : String → String) :
    KeyTxn → Option (Stmt KeyRing KeyLock KeyTxn)
  -- authorize_project
  | .authorize c now =>
    some (.read fun d => .orLeave (visibleProject c.actor c.projectId d.registry) fun v =>
      if v.role = .member then .projectRole c now v
      else .orLeave (grantProject c.projectId .keyManage false v none) (c.enter now))
  | .projectRole c now v =>
    some (.read fun d => .orLeave
      (grantProject c.projectId .keyManage false v (d.registry.projectRole c.actor v))
      (c.enter now))
  -- revoke_api_key
  | .revokeSelect keyId now project =>
    some (.lock (fun d => (d.keyOf project keyId).toList.map fun k => .key k.id) fun d =>
      .orLeave (orNotFound "API key" keyId (d.keyOf project keyId)) fun k => .revokeWrite k now)
  | .revokeWrite key now =>
    some (.commit (fun d => { d with keys := d.keys.put (key.revoked now) }) (.returned (.ok ())))
  -- rotate_api_key
  | .rotateSelect keyId overlapSeconds draw now project =>
    some (.lock (fun d => (d.keyOf project keyId).toList.map fun k => .key k.id) fun d =>
      .orLeave (orNotFound "API key" keyId (d.keyOf project keyId)) fun k =>
        .rotateSuccessor k overlapSeconds draw now project)
  | .rotateSuccessor previous overlapSeconds draw now project =>
    some (.read fun d =>
      if d.keys.rows.any fun k => decide (k.rotatedFromId = some previous.id) then
        .leave (.error (.conflict "API key has already been rotated"))
      else rotation previous overlapSeconds draw now project)
  -- _generate_unique_api_key
  | .generate key plaintexts previous expiresInDays =>
    some (.read fun d =>
      match plaintexts with
      | [] => .leave
          (.error (.conflict "Could not allocate a unique API key prefix; retry the request"))
      | plaintext :: plaintexts =>
        if d.keys.rows.any fun k => decide (k.keyPrefix = plaintext.2) then
          .generate key plaintexts previous expiresInDays
        else drawn s digest key plaintext previous expiresInDays)
  | .insert key previous =>
    some (.lock (fun _ => [.publicId key.publicId, .keyPrefix key.keyPrefix]) fun d =>
      if d.keys.rows.any fun k =>
          decide (k.publicId = key.publicId) || decide (k.keyPrefix = key.keyPrefix) then
        .leave (.error .integrityError)
      else .write key previous)
  | .write key previous => some (.commit (KeyRing.inserted key previous) (.returned (.ok ())))
  | .leave r => some (.commit id (.returned r))
  | .returned _ => none

/-- What happens outside the three operations: time passes, and the other
requests change who may do what. -/
inductive KeyEvent where
  | tick (now : Time)
  | registry (r : Registry)

def KeyRing.event (d : KeyRing) : KeyEvent → Option KeyRing
  | .tick now => if d.clock ≤ now then some { d with clock := now } else none
  | .registry r => some { d with registry := r }

/-- **The key operations as a program.** -/
def keyOperations (s : KeySettings) (digest : String → String) :
    Program KeyRing KeyLock KeyTxn KeyCall KeyEvent where
  start d c := some (d, .authorize c d.clock)
  stmt := KeyTxn.stmt s digest
  env := KeyRing.event
  conflict a b := decide (a = b)

/-! ## §3. Authentication. -/

/-- `[0-9a-f]`. -/
def isHexLower (c : Char) : Bool := ('0' ≤ c && c ≤ '9') || ('a' ≤ c && c ≤ 'f')

/-- `[A-Za-z0-9_-]`. -/
def isUrlSafe (c : Char) : Bool := c.isAlphanum || c == '_' || c == '-'

/-- `_API_KEY_PATTERN`: the part between the underscores. -/
def apiKeyPattern (plaintext : String) : Option String :=
  let cs := plaintext.toList
  if cs.length = 60 ∧ cs.take 4 = "whk_".toList ∧ ((cs.drop 4).take 12).all isHexLower
      ∧ (cs.drop 16).take 1 = ['_'] ∧ (cs.drop 17).all isUrlSafe then
    some (String.ofList ((cs.drop 4).take 12))
  else none

/-- `_DIGEST_PATTERN`. -/
def isDigest (text : String) : Bool :=
  decide (text.toList.length = 64) && text.toList.all isHexLower

/-- The verifying candidate: its key, project and organization. -/
def KeyRing.candidate (digest : String → String) (d : KeyRing) (plaintext : String) :
    Option (ApiKey × Project × Organization) :=
  (apiKeyPattern plaintext).bind fun text =>
    (d.keys.rows.filterMap fun k =>
      if k.keyPrefix = text then
        (d.registry.projects.find? k.projectId).bind fun p =>
          (d.registry.directory.organizations.find? p.organizationId).map fun o => (k, p, o)
      else none).find? fun row =>
        isDigest row.1.keyDigest && decide (digest plaintext = row.1.keyDigest)

/-- `get_api_key_project`; `none` is `invalid_api_key`. -/
def getApiKeyProject (digest : String → String) (d : KeyRing) (now : Time) (plaintext : String) :
    Option Project :=
  (d.candidate digest plaintext).bind fun row =>
    if row.1.dead now || !(row.1.scopes.contains "events:write") || !row.2.1.isActive
        || decide (row.2.2.lifecycleState ≠ .active) then none
    else some row.2.1

theorem candidate_mem {d : KeyRing} (h : d.candidate digest plaintext = some row) :
    row.1 ∈ d.keys.rows := by
  obtain ⟨text, -, h⟩ := bind_eq_some_iff.mp h
  obtain ⟨k, hk, hrow⟩ := mem_filterMap.mp (mem_of_find?_eq_some h)
  obtain ⟨-, hrow⟩ := ite_none_right_eq_some.mp hrow
  obtain ⟨p, -, hrow⟩ := bind_eq_some_iff.mp hrow
  obtain ⟨o, -, rfl⟩ := map_eq_some_iff.mp hrow
  exact hk

/-! ## §4. Families. -/

/-- The successor points back to its predecessor. -/
def ApiKey.Succeeds (a b : ApiKey) : Prop := b.rotatedFromId = some a.id

/-- The keys of a family, oldest first: a root with the family's id, and each
key behind it the replacement of the one before it. -/
def Lineage (family : Uuid) : List ApiKey → Prop
  | [] => True
  | root :: rest =>
    (root.publicId = family ∧ root.rotatedFromId = none)
      ∧ List.IsChain ApiKey.Succeeds (root :: rest)
      ∧ ∀ k ∈ rest, k.projectId = root.projectId ∧ k.scopes = root.scopes

/-- The keys of the family. -/
def familyOf (family : Uuid) (keys : List ApiKey) : List ApiKey :=
  keys.filter fun k => decide (k.rotationFamilyId = family)

/-- **Every family is one chain**, and no key has two successors. -/
structure Families (keys : List ApiKey) : Prop where
  publicIds : (keys.map ApiKey.publicId).Nodup
  successors : ∀ x ∈ keys, ∀ y ∈ keys, x.rotatedFromId ≠ none →
    x.rotatedFromId = y.rotatedFromId → x = y
  lineage : ∀ family, Lineage family (familyOf family keys)

/-- What ties a key to its family stays. -/
structure ApiKey.SameKin (a b : ApiKey) : Prop where
  id : b.id = a.id
  publicId : b.publicId = a.publicId
  projectId : b.projectId = a.projectId
  scopes : b.scopes = a.scopes
  rotationFamilyId : b.rotationFamilyId = a.rotationFamilyId
  rotatedFromId : b.rotatedFromId = a.rotatedFromId

theorem ApiKey.SameKin.refl (a : ApiKey) : a.SameKin a := ⟨rfl, rfl, rfl, rfl, rfl, rfl⟩

/-- A new key starts a family, or continues that of the key it replaces. -/
def ApiKey.Continues (key : ApiKey) : Option ApiKey → Prop
  | none => key.rotationFamilyId = key.publicId ∧ key.rotatedFromId = none
  | some previous => key.rotationFamilyId = previous.rotationFamilyId
      ∧ key.rotatedFromId = some previous.id
      ∧ key.projectId = previous.projectId ∧ key.scopes = previous.scopes

section Families

variable {keys : List ApiKey} {family : Uuid} {f : ApiKey → ApiKey}

theorem mem_familyOf : k ∈ familyOf family keys ↔ k ∈ keys ∧ k.rotationFamilyId = family := by
  unfold familyOf
  rw [mem_filter, decide_eq_true_eq]

theorem Lineage.map (h : Lineage family keys) (hf : ∀ a ∈ keys, a.SameKin (f a)) :
    Lineage family (keys.map f) := by
  cases keys with
  | nil => trivial
  | cons root =>
    obtain ⟨⟨hid, hroot⟩, hchain, hrest⟩ := h
    have hkin := hf root mem_cons_self
    refine ⟨⟨hkin.publicId.trans hid, hkin.rotatedFromId.trans hroot⟩, ?_, ?_⟩
    · rw [← map_cons, isChain_map]
      apply List.IsChain.imp_of_mem_imp _ hchain
      intro a b ha hb hab
      show (f b).rotatedFromId = some (f a).id
      rw [(hf b hb).rotatedFromId, (hf a ha).id]
      exact hab
    · intro k hk
      obtain ⟨a, ha, rfl⟩ := mem_map.mp hk
      have ha' := hf a (mem_cons_of_mem root ha)
      rw [ha'.projectId, ha'.scopes, hkin.projectId, hkin.scopes]
      exact hrest a ha

/-- **A lineage is continued at its last key**, which is the one without a
successor. -/
theorem Lineage.extend (h : Lineage family keys)
    (hmem : previous ∈ keys) (hlast : ∀ k ∈ keys, k.rotatedFromId ≠ some previous.id)
    (hkey : key.Continues (some previous)) : Lineage family (keys ++ [key]) := by
  obtain ⟨-, hfrom, hproject, hscopes⟩ := hkey
  cases keys with
  | nil => cases hmem
  | cons root rest =>
    obtain ⟨hroot, hchain, hrest⟩ := h
    refine ⟨hroot, ?_, ?_⟩
    · -- a key behind `previous` would be its successor
      obtain ⟨before, behind, hsplit⟩ := append_of_mem hmem
      have hnone : behind = [] := by
        cases behind with
        | nil => rfl
        | cons next =>
          rw [hsplit, isChain_append_cons_cons] at hchain
          apply absurd hchain.2.1 (hlast next _)
          rw [hsplit]
          simp
      subst hnone
      show List.IsChain ApiKey.Succeeds ((root :: rest) ++ [key])
      rw [hsplit, append_assoc]
      apply isChain_append_cons_cons.mpr
      rw [← hsplit]
      exact ⟨hchain, hfrom, isChain_singleton key⟩
    · intro k hk
      rcases mem_append.mp hk with hk | hk
      · exact hrest k hk
      · rw [mem_singleton.mp hk, hproject, hscopes]
        rcases mem_cons.mp hmem with rfl | hmem
        · exact ⟨rfl, rfl⟩
        · exact hrest previous hmem

theorem familyOf_map (hf : ∀ a ∈ keys, a.SameKin (f a)) :
    familyOf family (keys.map f) = (familyOf family keys).map f := by
  unfold familyOf
  rw [List.filter_map]
  congr 1
  apply List.filter_congr
  intro a ha
  show decide ((f a).rotationFamilyId = family) = _
  rw [(hf a ha).rotationFamilyId]

/-- Changes that leave the kinship alone leave the families alone. -/
theorem Families.map (h : Families keys) (hf : ∀ a ∈ keys, a.SameKin (f a)) :
    Families (keys.map f) where
  publicIds := by
    have hids : (keys.map f).map ApiKey.publicId = keys.map ApiKey.publicId := by
      rw [List.map_map]
      exact List.map_congr_left fun a ha => (hf a ha).publicId
    rw [hids]
    exact h.publicIds
  successors := by
    intro x hx y hy hsome heq
    obtain ⟨a, ha, rfl⟩ := List.mem_map.mp hx
    obtain ⟨b, hb, rfl⟩ := List.mem_map.mp hy
    rw [(hf a ha).rotatedFromId] at hsome heq
    rw [(hf b hb).rotatedFromId] at heq
    rw [h.successors a ha b hb hsome heq]
  lineage := by
    intro family
    rw [familyOf_map hf]
    exact (h.lineage family).map fun a ha => hf a (mem_familyOf.mp ha).1

/-- No family has the id of a key that is not there. -/
theorem Families.unused (h : Families keys) (hnew : ∀ k ∈ keys, k.publicId ≠ family) :
    familyOf family keys = [] := by
  have hlineage := h.lineage family
  cases hfamily : familyOf family keys with
  | nil => rfl
  | cons root =>
    rw [hfamily] at hlineage
    have hroot : root ∈ familyOf family keys := by
      rw [hfamily]
      exact mem_cons_self
    exact absurd hlineage.1.1 (hnew root (mem_familyOf.mp hroot).1)

/-- **A new key keeps the families**: it starts one, or continues one at its
end. -/
theorem Families.append (h : Families keys) (hkey : key.Continues previous)
    (hnew : ∀ k ∈ keys, k.publicId ≠ key.publicId)
    (hprevious : ∀ p ∈ previous, p ∈ keys ∧ ∀ k ∈ keys, k.rotatedFromId ≠ some p.id) :
    Families (keys ++ [key]) where
  publicIds := by
    rw [map_append, map_singleton, nodup_append]
    refine ⟨h.publicIds, nodup_singleton _, ?_⟩
    intro x hx y hy hxy
    obtain ⟨k, hk, rfl⟩ := mem_map.mp hx
    exact hnew k hk (hxy.trans (mem_singleton.mp hy))
  successors := by
    -- the replaced key had no successor
    have hfirst : ∀ k ∈ keys, key.rotatedFromId ≠ none → k.rotatedFromId ≠ key.rotatedFromId := by
      intro k hk hsome
      cases previous with
      | none => exact absurd hkey.2 hsome
      | some p =>
        rw [hkey.2.1]
        exact (hprevious p rfl).2 k hk
    intro x hx y hy hsome heq
    rcases mem_append.mp hx with hx | hx
    · rcases mem_append.mp hy with hy | hy
      · exact h.successors x hx y hy hsome heq
      · rw [mem_singleton.mp hy] at heq
        rw [heq] at hsome
        exact absurd heq (hfirst x hx hsome)
    · rw [mem_singleton.mp hx] at hsome heq ⊢
      rcases mem_append.mp hy with hy | hy
      · exact absurd heq.symm (hfirst y hy hsome)
      · exact (mem_singleton.mp hy).symm
  lineage := by
    intro family
    have hsplit : familyOf family (keys ++ [key])
        = familyOf family keys ++ familyOf family [key] := filter_append _ _
    rw [hsplit]
    by_cases hfamily : key.rotationFamilyId = family
    · have hone : familyOf family [key] = [key] := by
        simp [familyOf, hfamily]
      rw [hone]
      cases previous with
      | none =>
        rw [h.unused (fun k hk hid => hnew k hk (hid.trans (hfamily.symm.trans hkey.1)))]
        exact ⟨⟨hkey.1.symm.trans hfamily, hkey.2⟩, isChain_singleton key,
          fun k hk => absurd hk not_mem_nil⟩
      | some p =>
        obtain ⟨hp, hlast⟩ := hprevious p rfl
        apply (h.lineage family).extend _ _ hkey
        · exact mem_familyOf.mpr ⟨hp, hkey.1.symm.trans hfamily⟩
        · exact fun k hk => hlast k (mem_familyOf.mp hk).1
    · have hnone : familyOf family [key] = [] := by
        simp [familyOf, hfamily]
      rw [hnone, append_nil]
      exact h.lineage family

end Families

/-! ## §5. What may happen to a key. -/

/-- A key grows older: its end does not move away, and what was revoked stays
revoked. -/
structure ApiKey.Ages (k k' : ApiKey) : Prop where
  kin : k.SameKin k'
  expires : ∀ t, k.expiresAt = some t → ∃ t', k'.expiresAt = some t' ∧ t' ≤ t
  inactive : k.isActive = false → k'.isActive = false
  revoked : ∀ t, k.revokedAt = some t → k'.revokedAt = some t

namespace ApiKey.Ages

variable {k k' k'' : ApiKey}

theorem refl (k : ApiKey) : k.Ages k where
  kin := .refl k
  expires := fun t h => ⟨t, h, le_refl t⟩
  inactive := fun h => h
  revoked := fun _ h => h

theorem trans (h : k.Ages k') (h' : k'.Ages k'') : k.Ages k'' where
  kin :=
    ⟨h'.kin.id.trans h.kin.id, h'.kin.publicId.trans h.kin.publicId,
      h'.kin.projectId.trans h.kin.projectId, h'.kin.scopes.trans h.kin.scopes,
      h'.kin.rotationFamilyId.trans h.kin.rotationFamilyId,
      h'.kin.rotatedFromId.trans h.kin.rotatedFromId⟩
  expires := by
    intro t ht
    obtain ⟨t', ht', hle⟩ := h.expires t ht
    obtain ⟨t'', ht'', hle'⟩ := h'.expires t' ht'
    exact ⟨t'', ht'', hle'.trans hle⟩
  inactive := fun hk => h'.inactive (h.inactive hk)
  revoked := fun t hk => h'.revoked t (h.revoked t hk)

/-- **Dead keys stay dead.** -/
theorem dead (h : k.Ages k') {now later : Time} (hlater : now ≤ later)
    (hdead : k.dead now = true) : k'.dead later = true := by
  unfold ApiKey.dead at hdead ⊢
  rw [Bool.or_eq_true, Bool.or_eq_true] at hdead ⊢
  rcases hdead with (hinactive | hrevoked) | hexpired
  · have hk := h.inactive (by simpa using hinactive)
    exact Or.inl (Or.inl (by rw [hk]; rfl))
  · obtain ⟨t, ht⟩ := isSome_iff_exists.mp hrevoked
    exact Or.inl (Or.inr (by rw [h.revoked t ht]; rfl))
  · -- an end that has come does not move away
    obtain ⟨t, ht, hpast⟩ := (any_eq_true _ _).mp hexpired
    obtain ⟨t', ht', hle⟩ := h.expires t ht
    have hnow : t ≤ now := of_decide_eq_true hpast
    refine Or.inr ?_
    unfold ApiKey.expired
    rw [ht']
    exact decide_eq_true (hle.trans (hnow.trans hlater))

end ApiKey.Ages

theorem ApiKey.ages_revoked (k : ApiKey) (now : Time) : k.Ages (k.revoked now) where
  kin := ⟨rfl, rfl, rfl, rfl, rfl, rfl⟩
  expires := fun t h => ⟨t, h, le_refl t⟩
  inactive := fun _ => rfl
  revoked := by
    intro t ht
    show k.revokedAt.or (some now) = some t
    rw [ht]
    rfl

theorem ApiKey.ages_overlapped (k : ApiKey) (overlapUntil : Time) :
    k.Ages (k.overlapped overlapUntil) := by
  unfold ApiKey.overlapped
  split
  next hnone =>
    refine ⟨⟨rfl, rfl, rfl, rfl, rfl, rfl⟩, ?_, fun h => h, fun _ h => h⟩
    intro t ht
    rw [hnone] at ht
    cases ht
  next t ht =>
    split
    next hlater =>
      refine ⟨⟨rfl, rfl, rfl, rfl, rfl, rfl⟩, ?_, fun h => h, fun _ h => h⟩
      intro u hu
      rw [ht] at hu
      cases hu
      exact ⟨overlapUntil, rfl, hlater.le⟩
    · exact .refl k

/-- Every key of `d` is in `d'`, older. -/
def KeyRing.Ages (d d' : KeyRing) : Prop :=
  ∀ k ∈ d.keys.rows, ∃ k' ∈ d'.keys.rows, k.Ages k'

/-! ## §6. What the transactions know. -/

/-- The changes that a lock allows to the others. -/
def KeyLock.keeps : KeyLock → KeyRing → KeyRing → Prop
  | .key id, d, d' => (∀ k, d.keys.find? id = some k → d'.keys.find? id = some k)
      ∧ ((∀ k ∈ d.keys.rows, k.rotatedFromId ≠ some id) →
        ∀ k ∈ d'.keys.rows, k.rotatedFromId ≠ some id)
  | .publicId id, d, d' => (∀ k ∈ d.keys.rows, k.publicId ≠ id) →
      ∀ k ∈ d'.keys.rows, k.publicId ≠ id
  | .keyPrefix _, _, _ => True

/-- The key's row is locked, and is as it was read. -/
structure KeyRing.Holds (d : KeyRing) (held : List KeyLock) (k : ApiKey) : Prop where
  locked : .key k.id ∈ held
  row : d.keys.find? k.id = some k

/-- The new row is prepared: it continues the family of the locked key, which
has no successor, or starts one. -/
structure KeyRing.Prepared (d : KeyRing) (held : List KeyLock) (key : ApiKey)
    (previous : Option ApiKey) : Prop where
  continues : key.Continues previous
  holds : ∀ p ∈ previous, d.Holds held p ∧ ∀ k ∈ d.keys.rows, k.rotatedFromId ≠ some p.id

/-- What a transaction knows at its next statement. -/
def KeyTxn.ok (d : KeyRing) (held : List KeyLock) : KeyTxn → Prop
  | .revokeWrite key _ => d.Holds held key
  | .rotateSuccessor previous _ _ _ project =>
    d.Holds held previous ∧ previous.projectId = project.id
  | .generate key _ previous _ => d.Prepared held key (previous.map Prod.fst)
  | .insert key previous => d.Prepared held key (previous.map Prod.fst)
  | .write key previous => d.Prepared held key (previous.map Prod.fst)
      ∧ .publicId key.publicId ∈ held ∧ ∀ k ∈ d.keys.rows, k.publicId ≠ key.publicId
  | _ => True

section Statements

variable {s : KeySettings} {digest : String → String} {d d' : KeyRing} {held : List KeyLock}
  {t : KeyTxn}

variable {k key k' : ApiKey} {project : Project} {l : KeyLock}

theorem KeyRing.Holds.stable (h : d.Holds held k)
    (hkeeps : ∀ l ∈ held, l.keeps d d') : d'.Holds held k :=
  ⟨h.locked, (hkeeps _ h.locked).1 k h.row⟩

theorem KeyRing.Prepared.stable (h : d.Prepared held key previous)
    (hkeeps : ∀ l ∈ held, l.keeps d d') : d'.Prepared held key previous := by
  refine ⟨h.continues, fun p hp => ?_⟩
  obtain ⟨hholds, hlast⟩ := h.holds p hp
  exact ⟨hholds.stable hkeeps, (hkeeps _ hholds.locked).2 hlast⟩

theorem KeyRing.Prepared.mono (h : d.Prepared held key previous) :
    d.Prepared (held ++ got) key previous := by
  refine ⟨h.continues, fun p hp => ?_⟩
  obtain ⟨hholds, hlast⟩ := h.holds p hp
  exact ⟨⟨mem_append_left _ hholds.locked, hholds.row⟩, hlast⟩

theorem keyTxn_stable (h : t.ok d held) (hkeeps : ∀ l ∈ held, l.keeps d d') : t.ok d' held := by
  cases t with
  | revokeWrite => exact KeyRing.Holds.stable h hkeeps
  | rotateSuccessor =>
    exact ⟨h.1.stable hkeeps, h.2⟩
  | generate | insert => exact KeyRing.Prepared.stable h hkeeps
  | write =>
    obtain ⟨hprepared, hlock, hnew⟩ := h
    exact ⟨hprepared.stable hkeeps, hlock, hkeeps _ hlock hnew⟩
  | _ => trivial

theorem ok_orLeaveKey {α : Type} {r : Except AppError α} {next : α → KeyTxn}
    (h : ∀ a, r = .ok a → (next a).ok d held) : (KeyTxn.orLeave r next).ok d held := by
  cases r with
  | error => trivial
  | ok a => exact h a rfl

/-- A new key starts its own family. -/
theorem enter_ok (c : KeyCall) (now : Time) (project : Project) :
    (c.enter now project).ok d held := by
  unfold KeyCall.enter
  split
  · apply ok_orLeaveKey
    intro scopes _
    exact ⟨⟨rfl, rfl⟩, fun p hp => by cases hp⟩
  · trivial
  · trivial

theorem validateScopes_eq (h : validateScopes scopes = .ok valid) : valid = scopes := by
  obtain ⟨-, h⟩ := guard_eq_ok.mp h
  obtain ⟨-, h⟩ := guard_eq_ok.mp h
  cases h
  rfl

theorem rotation_ok {previous : ApiKey} {now : Time} (hholds : d.Holds held previous)
    (hproject : previous.projectId = project.id)
    (hlast : ∀ k ∈ d.keys.rows, k.rotatedFromId ≠ some previous.id) :
    (rotation previous overlapSeconds draw now project).ok d held := by
  unfold rotation
  split
  · trivial
  · apply ok_orLeaveKey
    intro scopes hscopes
    refine ⟨⟨rfl, rfl, hproject.symm, validateScopes_eq hscopes⟩, ?_⟩
    intro p hp
    cases hp
    exact ⟨hholds, hlast⟩

theorem drawn_ok {plaintext : String × String} (h : d.Prepared held key (previous.map Prod.fst)) :
    (drawn s digest key plaintext previous expiresInDays).ok d held := by
  apply ok_orLeaveKey
  intro expiresAt _
  cases previous with
  | none => exact ⟨h.continues, h.holds⟩
  | some =>
    apply ok_orLeaveKey
    intro overlapUntil _
    exact ⟨h.continues, h.holds⟩

theorem keyTxn_read {next : KeyRing → KeyTxn} (h : t.ok d held)
    (hst : t.stmt s digest = some (.read next)) : (next d).ok d held := by
  cases t with
  | authorize c now =>
    cases hst
    apply ok_orLeaveKey
    intro v _
    split
    · trivial
    · exact ok_orLeaveKey fun project _ => enter_ok c now project
  | projectRole c now =>
    cases hst
    exact ok_orLeaveKey fun project _ => enter_ok c now project
  | rotateSuccessor =>
    cases hst
    dsimp only
    split
    · trivial
    · rename_i hnone
      apply rotation_ok h.1 h.2
      intro k hk hfrom
      exact hnone (any_eq_true.mpr ⟨k, hk, decide_eq_true hfrom⟩)
  | generate _ plaintexts =>
    cases hst
    cases plaintexts with
    | nil => trivial
    | cons =>
      dsimp only
      split
      · exact h
      · exact drawn_ok h
  | _ => cases hst

theorem keyOf_some (h : d.keyOf project keyId = some k) :
    k ∈ d.keys.rows ∧ k.projectId = project.id := by
  unfold KeyRing.keyOf at h
  have hk := List.find?_some h
  rw [Bool.and_eq_true, decide_eq_true_eq] at hk
  exact ⟨mem_of_find?_eq_some h, hk.1⟩

/-- `FOR UPDATE` on the key of the project. -/
theorem holds_select (h : d.keyOf project keyId = some k) :
    d.Holds (held ++ (d.keyOf project keyId).toList.map fun k => .key k.id) k := by
  constructor
  · rw [h]
    exact mem_append_right _ mem_cons_self
  · exact Table.find?_key (keyOf_some h).1

theorem keyTxn_lock {want : KeyRing → List KeyLock} {next : KeyRing → KeyTxn} (h : t.ok d held)
    (hst : t.stmt s digest = some (.lock want next)) : (next d).ok d (held ++ want d) := by
  cases t with
  | revokeSelect =>
    cases hst
    apply ok_orLeaveKey
    intro k hk
    exact holds_select (orNotFound_eq_ok.mp hk)
  | rotateSelect =>
    cases hst
    apply ok_orLeaveKey
    intro k hk
    have hkey := orNotFound_eq_ok.mp hk
    exact ⟨holds_select hkey, (keyOf_some hkey).2⟩
  | insert =>
    cases hst
    dsimp only
    split
    · trivial
    · rename_i hfree
      refine ⟨KeyRing.Prepared.mono h, mem_append_right _ mem_cons_self, ?_⟩
      intro k hk hid
      apply hfree
      refine any_eq_true.mpr ⟨k, hk, ?_⟩
      rw [decide_eq_true hid]
      rfl
  | _ => cases hst

/-! ## §7. What a commit changes. -/

theorem keeps_refl (l : KeyLock) (d : KeyRing) : l.keeps d d := by
  cases l with
  | key => exact ⟨fun _ h => h, fun h => h⟩
  | publicId => exact fun h => h
  | keyPrefix => trivial

theorem KeyLock.keeps.trans (h : l.keeps d d') (h' : l.keeps d' d'') : l.keeps d d'' := by
  cases l with
  | key => exact ⟨fun k hk => h'.1 k (h.1 k hk), fun hd => h'.2 (h.2 hd)⟩
  | publicId => exact fun hd => h' (h hd)
  | keyPrefix => trivial

theorem KeyRing.Ages.trans (h : d.Ages d') (h' : d'.Ages d'') : d.Ages d'' := by
  intro k hk
  obtain ⟨k', hk', hages⟩ := h k hk
  obtain ⟨k'', hk'', hages'⟩ := h' k' hk'
  exact ⟨k'', hk'', hages.trans hages'⟩

/-- The table with one row replaced. -/
def KeyRing.replaced (d : KeyRing) (k : ApiKey) : KeyRing := { d with keys := d.keys.put k }

/-- An update of a locked row makes it older and leaves the others alone. -/
theorem ages_put (hrow : d.keys.find? k.id = some k) (hages : k.Ages k') (ha : a ∈ d.keys.rows) :
    a.Ages (if a.id = k'.id then k' else a) := by
  split
  next hid =>
    have hsame : a = k := d.keys.eq_of_key_eq ha (Table.mem_of_find? hrow) (hid.trans hages.kin.id)
    rw [hsame]
    exact hages
  · exact .refl a

theorem replaced_families (hd : Families d.keys.rows)
    (hrow : d.keys.find? k.id = some k) (hages : k.Ages k') :
    Families (d.replaced k').keys.rows :=
  hd.map fun _ ha => (ages_put hrow hages ha).kin

theorem replaced_ages (hrow : d.keys.find? k.id = some k) (hages : k.Ages k') :
    d.Ages (d.replaced k') := by
  intro a ha
  exact ⟨_, mem_map_of_mem ha, ages_put hrow hages ha⟩

theorem replaced_keeps (hrow : d.keys.find? k.id = some k) (hages : k.Ages k')
    (hl : l ≠ .key k.id) : l.keeps d (d.replaced k') := by
  cases l with
  | key id =>
    have hne : k'.id ≠ id := fun h => hl (congrArg KeyLock.key (h.symm.trans hages.kin.id))
    refine ⟨fun a ha => (Table.find?_put_ne hne).trans ha, fun hnone x hx => ?_⟩
    obtain ⟨a, ha, rfl⟩ := mem_map.mp hx
    rw [(ages_put hrow hages ha).kin.rotatedFromId]
    exact hnone a ha
  | publicId =>
    intro hnone x hx
    obtain ⟨a, ha, rfl⟩ := mem_map.mp hx
    rw [(ages_put hrow hages ha).kin.publicId]
    exact hnone a ha
  | keyPrefix => trivial

/-- The table with a new row. -/
def KeyRing.appended (d : KeyRing) (key : ApiKey) : KeyRing :=
  { d with keys := d.keys.append fun id => { key with id := id } }

theorem rows_appended (key : ApiKey) :
    (d.appended key).keys.rows = d.keys.rows ++ [{ key with id := d.keys.next }] :=
  Serial.rows_append rfl

theorem appended_ages (key : ApiKey) : d.Ages (d.appended key) := by
  intro a ha
  rw [rows_appended]
  exact ⟨a, mem_append_left _ ha, .refl a⟩

theorem appended_keeps (hfrom : ∀ id, l = .key id →
    key.rotatedFromId ≠ some id) (hid : l ≠ .publicId key.publicId) :
    l.keeps d (d.appended key) := by
  cases l with
  | key id =>
    refine ⟨fun a ha => ?_, fun hnone x hx => ?_⟩
    · have hmem : a ∈ (d.appended key).keys.rows := by
        rw [rows_appended]
        exact mem_append_left _ (Table.mem_of_find? ha)
      exact Table.find?_eq_some.mpr ⟨hmem, Table.key_of_find? ha⟩
    · rw [rows_appended] at hx
      rcases mem_append.mp hx with hx | hx
      · exact hnone x hx
      · rw [mem_singleton.mp hx]
        exact hfrom id rfl
  | publicId =>
    intro hnone x hx
    rw [rows_appended] at hx
    rcases mem_append.mp hx with hx | hx
    · exact hnone x hx
    · rw [mem_singleton.mp hx]
      exact fun h => hid (congrArg KeyLock.publicId h.symm)
  | keyPrefix => trivial

/-- The key that is replaced gets its new end. -/
def KeyRing.ended (d : KeyRing) : Option (ApiKey × Time) → KeyRing
  | none => d
  | some (p, overlapUntil) => d.replaced (p.overlapped overlapUntil)

theorem inserted_eq (key : ApiKey) (previous : Option (ApiKey × Time)) :
    KeyRing.inserted key previous d = (d.ended previous).appended key := by
  cases previous with
  | none => rfl
  | some => rfl

section Inserted

variable {key : ApiKey} {previous : Option (ApiKey × Time)}

theorem ended_families (hd : Families d.keys.rows)
    (h : d.Prepared held key (previous.map Prod.fst)) :
    Families (d.ended previous).keys.rows := by
  cases previous with
  | none => exact hd
  | some x => exact replaced_families hd (h.holds x.1 rfl).1.row (x.1.ages_overlapped x.2)

theorem ended_ages (h : d.Prepared held key (previous.map Prod.fst)) :
    d.Ages (d.ended previous) := by
  cases previous with
  | none => exact fun k hk => ⟨k, hk, .refl k⟩
  | some x => exact replaced_ages (h.holds x.1 rfl).1.row (x.1.ages_overlapped x.2)

/-- A row was there before, as a row of the same kin. -/
theorem kin_of_ended (h : d.Prepared held key (previous.map Prod.fst))
    (hx : x ∈ (d.ended previous).keys.rows) : ∃ a ∈ d.keys.rows, a.SameKin x := by
  cases previous with
  | none => exact ⟨x, hx, .refl x⟩
  | some p =>
    obtain ⟨a, ha, rfl⟩ := mem_map.mp hx
    exact ⟨a, ha, (ages_put (h.holds p.1 rfl).1.row (p.1.ages_overlapped p.2) ha).kin⟩

theorem ended_keeps (h : d.Prepared held key (previous.map Prod.fst)) (hl : l ∉ held) :
    l.keeps d (d.ended previous) := by
  cases previous with
  | none => exact keeps_refl l d
  | some x =>
    obtain ⟨hholds, -⟩ := h.holds x.1 rfl
    apply replaced_keeps hholds.row (x.1.ages_overlapped x.2)
    rintro rfl
    exact hl hholds.locked

/-- **The commit of a new key keeps the families.** -/
theorem inserted_families (hd : Families d.keys.rows)
    (h : d.Prepared held key (previous.map Prod.fst))
    (hnew : ∀ k ∈ d.keys.rows, k.publicId ≠ key.publicId) :
    Families (KeyRing.inserted key previous d).keys.rows := by
  have hended := ended_families hd h
  have hfresh : ∀ x ∈ (d.ended previous).keys.rows, x.publicId ≠ key.publicId := by
    intro x hx
    obtain ⟨a, ha, hkin⟩ := kin_of_ended h hx
    rw [hkin.publicId]
    exact hnew a ha
  rw [inserted_eq, rows_appended]
  cases hprevious : previous.map Prod.fst with
  | none =>
    rw [hprevious] at h
    have hcontinues : ApiKey.Continues { key with id := (d.ended previous).keys.next } none :=
      h.continues
    apply hended.append hcontinues hfresh
    intro p hp
    cases hp
  | some p =>
    have hprepared := h
    rw [hprevious] at h
    obtain ⟨hholds, hlast⟩ := h.holds p rfl
    -- the row of the replaced key after its update
    obtain ⟨p', hp', hages⟩ := ended_ages hprepared p (Table.mem_of_find? hholds.row)
    have hkin := hages.kin
    obtain ⟨hfamily, hfrom, hproject, hscopes⟩ := h.continues
    have hcontinues : ApiKey.Continues { key with id := (d.ended previous).keys.next }
        (some p') :=
      ⟨hfamily.trans hkin.rotationFamilyId.symm, hfrom.trans (congrArg some hkin.id.symm),
        hproject.trans hkin.projectId.symm, hscopes.trans hkin.scopes.symm⟩
    apply hended.append hcontinues hfresh
    intro q hq
    cases hq
    refine ⟨hp', fun x hx => ?_⟩
    obtain ⟨a, ha, hakin⟩ := kin_of_ended hprepared hx
    rw [hakin.rotatedFromId, hkin.id]
    exact hlast a ha

theorem inserted_keeps (h : d.Prepared held key (previous.map Prod.fst))
    (hlock : .publicId key.publicId ∈ held) (hl : l ∉ held) :
    l.keeps d (KeyRing.inserted key previous d) := by
  rw [inserted_eq]
  apply (ended_keeps h hl).trans
  apply appended_keeps
  · rintro id rfl hfrom
    cases hprevious : previous.map Prod.fst with
    | none =>
      rw [hprevious] at h
      rw [h.continues.2] at hfrom
      cases hfrom
    | some p =>
      rw [hprevious] at h
      rw [h.continues.2.1] at hfrom
      cases hfrom
      exact hl (h.holds p rfl).1.locked
  · rintro rfl
    exact hl hlock

end Inserted

theorem keyTxn_commit {next : KeyTxn} (hd : Families d.keys.rows) (h : t.ok d held)
    (hst : t.stmt s digest = some (.commit write next)) :
    Families (write d).keys.rows ∧ next.ok (write d) [] ∧ d.Ages (write d)
      ∧ ∀ l, l ∉ held → l.keeps d (write d) := by
  cases t with
  | revokeWrite key now =>
    cases hst
    have hages := key.ages_revoked now
    refine ⟨replaced_families hd h.row hages, trivial, replaced_ages h.row hages, ?_⟩
    intro l hl
    apply replaced_keeps h.row hages
    rintro rfl
    exact hl h.locked
  | write key =>
    cases hst
    obtain ⟨hprepared, hlock, hnew⟩ := h
    refine ⟨inserted_families hd hprepared hnew, trivial, ?_, ?_⟩
    · rw [inserted_eq]
      exact (ended_ages hprepared).trans (appended_ages key)
    · exact fun l hl => inserted_keeps hprepared hlock hl
  | leave =>
    cases hst
    exact ⟨hd, trivial, fun k hk => ⟨k, hk, .refl k⟩, fun l _ => keeps_refl l d⟩
  | _ => cases hst

end Statements

/-- **The proof outline of the key operations.** -/
def apiKeyOutline (s : KeySettings) (digest : String → String) :
    Outline (keyOperations s digest) (fun _ _ _ => True) where
  glob d := Families d.keys.rows
  ok := KeyTxn.ok
  keeps := KeyLock.keeps
  rely := KeyRing.Ages
  conflict_symm a b := decide_eq_decide.mpr eq_comm
  stable d d' held t _ h _ hkeeps := keyTxn_stable h hkeeps
  start_ok d c d' t hd h := by
    cases h
    exact ⟨hd, trivial, fun k hk => ⟨k, hk, .refl k⟩, fun l => keeps_refl l d⟩
  env_ok d e d' hd h := by
    have hkeys : d'.keys = d.keys := by
      cases e with
      | tick =>
        obtain ⟨-, h⟩ := ite_none_right_eq_some.mp h
        cases h
        rfl
      | registry =>
        cases h
        rfl
    refine ⟨hkeys ▸ hd, fun k hk => ⟨k, hkeys ▸ hk, .refl k⟩, fun l => ?_⟩
    cases l with
    | key => exact ⟨fun k hk => hkeys ▸ hk, fun hnone => hkeys ▸ hnone⟩
    | publicId => exact fun hnone => hkeys ▸ hnone
    | keyPrefix => trivial
  read_ok d held t next _ h hst _ := keyTxn_read h hst
  lock_ok d held t want next _ h hst _ := keyTxn_lock h hst
  skip_ok d held t limit want next got _ h hst := by
    cases t <;> cases hst
  commit_ok d held t write next hd h hst _ := by
    obtain ⟨hfamilies, hnext, hages, hkeeps⟩ := keyTxn_commit hd h hst
    refine ⟨hfamilies, hnext, hages, fun l hl => hkeeps l fun hmem => ?_⟩
    exact absurd rfl (of_decide_eq_false (hl l hmem))

/-- **API-KEY ROTATION FAMILIES.**  Under every interleaving of the statements
of `create_api_key`, `rotate_api_key` and `revoke_api_key`: each family is one
chain, in one project and with the same scopes; keys only grow older; and a
key that is revoked or expired at some time is refused at all later times. -/
theorem rotation_families (s : KeySettings) (digest : String → String) (d : KeyRing)
    (hempty : d.keys.rows = []) (before later : List (Move KeyCall KeyEvent))
    (σ σ' : Sys KeyRing KeyLock KeyTxn)
    (hbefore : run (keyOperations s digest).step (Sys.initial d) before = some σ)
    (hlater : run (keyOperations s digest).step σ later = some σ') :
    Families σ.db.keys.rows ∧ σ.db.Ages σ'.db
      ∧ ∀ k ∈ σ.db.keys.rows, ∀ now then_, now ≤ then_ → k.dead now = true →
        ∀ plaintext row, σ'.db.candidate digest plaintext = some row → row.1.id = k.id →
          getApiKeyProject digest σ'.db then_ plaintext = none := by
  have hallowed : ∀ (u v : Sys KeyRing KeyLock KeyTxn) m,
      Allowed (keyOperations s digest) (fun _ _ _ => True) u m v :=
    fun _ _ _ _ _ _ _ _ _ => trivial
  have hnone : Families d.keys.rows := by
    rw [hempty]
    exact ⟨nodup_nil, fun x hx => absurd hx not_mem_nil, fun family => trivial⟩
  have hinv : (apiKeyOutline s digest).Inv σ :=
    run_inv (fun u m v hu huv => (apiKeyOutline s digest).inv_step hu huv (hallowed u v m))
      ((apiKeyOutline s digest).inv_initial hnone) hbefore
  have hages : σ.db.Ages σ'.db := by
    have hend : (apiKeyOutline s digest).Inv σ' ∧ σ.db.Ages σ'.db := by
      apply run_inv (I := fun u => (apiKeyOutline s digest).Inv u ∧ σ.db.Ages u.db) ?_ _ hlater
      · intro u m v hu huv
        refine ⟨(apiKeyOutline s digest).inv_step hu.1 huv (hallowed u v m), hu.2.trans ?_⟩
        exact (apiKeyOutline s digest).rely_step (fun d k hk => ⟨k, hk, .refl k⟩) hu.1 huv
          (hallowed u v m)
      · exact ⟨hinv, fun k hk => ⟨k, hk, .refl k⟩⟩
    exact hend.2
  refine ⟨hinv.glob, hages, ?_⟩
  intro k hk now then_ hle hdead plaintext row hrow hid
  -- the row with the key's id is the key, older
  obtain ⟨k', hk', hold⟩ := hages k hk
  have hmem : row.1 ∈ σ'.db.keys.rows := candidate_mem hrow
  have hsame : row.1 = k' := σ'.db.keys.eq_of_key_eq hmem hk' (hid.trans hold.kin.id.symm)
  unfold getApiKeyProject
  rw [hrow, bind_some, hsame, hold.dead hle hdead]
  rfl

/-- An account, its organization and a project. -/
def keyRegistry : Registry where
  directory :=
    { users := Serial.empty.append fun id => { id, email := "owner@example.com" }
      organizations := Table.empty.insert { id := 1 }
      members := Table.empty.insert ⟨1, 1, .owner⟩ }
  projects := Table.empty.insert
    { id := 1, publicId := "project-1", organizationId := 1, createdAt := 0 }

/-- A key is created, and two rotations of it overtake each other. -/
def twoRotations : List (Move KeyCall KeyEvent) :=
  [.begin 0 ⟨1, "project-1", .create "first" none none ⟨"key-1", [("text-1", "prefix-1")]⟩⟩,
    .exec 0, .exec 0, .exec 0, .exec 0,
    .begin 1 ⟨1, "project-1", .rotate "key-1" none ⟨"key-2", [("text-2", "prefix-2")]⟩⟩,
    .begin 2 ⟨1, "project-1", .rotate "key-1" none ⟨"key-3", [("text-3", "prefix-3")]⟩⟩,
    .exec 1, .exec 2, .exec 1, .exec 1, .exec 1, .exec 1, .exec 1, .exec 2, .exec 2]

/-- The replacement is revoked. -/
def revokeSecond : List (Move KeyCall KeyEvent) :=
  [.env (.tick 10), .begin 3 ⟨1, "project-1", .revoke "key-2"⟩, .exec 3, .exec 3, .exec 3]

/-- One of two rotations of a key succeeds; the family is a chain of two. -/
theorem rotation_families_race :
    ∃ σ σ', run (keyOperations {} id).step (Sys.initial ⟨0, keyRegistry, Serial.empty⟩) twoRotations
        = some σ
      ∧ run (keyOperations {} id).step σ revokeSecond = some σ'
      ∧ σ.db.keys.rows.map ApiKey.rotatedFromId = [none, some 1]
      ∧ σ'.db.keys.rows.map ApiKey.revokedAt = [none, some 10]
      ∧ Families σ.db.keys.rows ∧ σ.db.Ages σ'.db := by
  obtain ⟨σ, σ', hσ, hσ', hchain, hrevoked⟩ : ∃ σ σ',
      run (keyOperations {} id).step (Sys.initial ⟨0, keyRegistry, Serial.empty⟩) twoRotations
        = some σ
      ∧ run (keyOperations {} id).step σ revokeSecond = some σ'
      ∧ σ.db.keys.rows.map ApiKey.rotatedFromId = [none, some 1]
      ∧ σ'.db.keys.rows.map ApiKey.revokedAt = [none, some 10] := by
    decide +kernel
  obtain ⟨hfamilies, hages, -⟩ := rotation_families {} id _ rfl _ _ σ σ' hσ hσ'
  exact ⟨σ, σ', hσ, hσ', hchain, hrevoked, hfamilies, hages⟩

end WebhookPlatform
