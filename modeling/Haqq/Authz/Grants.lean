import Haqq.Authz.Authorization

/-!
# The store of grants

The authz keeper of the SDK as a keyed store: a grant is saved under the message URL of its own
authorization, and looked up and deleted under the URL the caller passes.
-/

namespace Haqq.Authz

open Function

structure Grant where
  authorization : Authorization
  expiration : Option Int
  deriving DecidableEq

structure GrantKey where
  grantee : Address
  granter : Address
  url : MsgURL
  deriving DecidableEq, Repr

/-- Every grant sits under the URL of its authorization. -/
structure GrantStore where
  grant : GrantKey → Option Grant
  keyed : ∀ key g, grant key = some g → g.authorization.msgTypeURL = key.url

inductive AuthzError
  | invalidExpirationTime
  | noAuthorizationFound
  deriving DecidableEq, Repr

def Grant.expired (now : Int) (g : Grant) : Bool := g.expiration.any (· < now)

namespace GrantStore

def empty : GrantStore := ⟨fun _ => none, fun _ _ h => nomatch h⟩

def getAuthorization (now : Int) (grants : GrantStore) (key : GrantKey) : Option Grant :=
  (grants.grant key).filter fun g => !g.expired now

def put (grants : GrantStore) (grantee granter : Address) (auth : Authorization)
    (expiration : Option Int) : GrantStore where
  grant := update grants.grant ⟨grantee, granter, auth.msgTypeURL⟩
    (some ⟨auth, expiration⟩)
  keyed key g h := by
    rw [update_apply] at h
    split at h
    · rename_i hkey
      cases h
      rw [hkey]
    · exact grants.keyed key g h

def erase (grants : GrantStore) (key : GrantKey) : GrantStore where
  grant := update grants.grant key none
  keyed key' g h := by
    rw [update_apply] at h
    split at h
    · cases h
    · exact grants.keyed key' g h

def saveGrant (now : Int) (grants : GrantStore) (grantee granter : Address) (auth : Authorization)
    (expiration : Option Int) : Except AuthzError GrantStore :=
  if expiration.any (· ≤ now) then .error .invalidExpirationTime
  else .ok (grants.put grantee granter auth expiration)

def deleteGrant (grants : GrantStore) (key : GrantKey) : Except AuthzError GrantStore :=
  match grants.grant key with
  | some _ => .ok (grants.erase key)
  | none => .error .noAuthorizationFound

variable {grants grants' : GrantStore} {key : GrantKey} {grantee granter : Address}
  {auth : Authorization} {expiration : Option Int} {now : Int}

theorem put_grant (key : GrantKey) :
    (grants.put grantee granter auth expiration).grant key =
      if key = ⟨grantee, granter, auth.msgTypeURL⟩ then some ⟨auth, expiration⟩
      else grants.grant key :=
  update_apply ..

theorem erase_grant (key' : GrantKey) :
    (grants.erase key).grant key' = if key' = key then none else grants.grant key' :=
  update_apply ..

theorem saveGrant_ok :
    grants.saveGrant now grantee granter auth expiration = .ok grants' ↔
      expiration.any (· ≤ now) = false ∧ grants' = grants.put grantee granter auth expiration := by
  unfold saveGrant
  cases hany : expiration.any (· ≤ now) with
  | false => exact ⟨fun h => ⟨rfl, (Except.ok.inj h).symm⟩, fun h => congrArg Except.ok h.2.symm⟩
  | true => simp

theorem deleteGrant_ok :
    grants.deleteGrant key = .ok grants' ↔
      (grants.grant key).isSome ∧ grants' = grants.erase key := by
  unfold deleteGrant
  cases grants.grant key with
  | none => simp
  | some g => simp [eq_comm]

theorem getAuthorization_some {g : Grant} :
    grants.getAuthorization now key = some g ↔ grants.grant key = some g ∧
      g.expired now = false := by
  unfold getAuthorization
  rw [Option.filter_eq_some_iff]
  simp

end GrantStore

end Haqq.Authz
