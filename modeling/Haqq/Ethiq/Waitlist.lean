import Haqq.Ethiq.Keeper

/-!
# Queries of the waitlist

`x/ethiq/types/waitlist_utils.go` and the queries of `x/ethiq/keeper/grpc_query.go`, which cut a
page out of a list of applications.  A slice of the length of the page is allocated first, so a
limit beyond what can be allocated ends the query in a panic.

* `Describes.paginate_eq` computes a page of any list with an accessor.
* `queries_page_iff`: both queries return their page exactly if it is pageable.
-/

namespace Haqq.Ethiq

open Lib

/-- What the last two fields say is what the tests of the waitlist check. -/
structure Waitlist (applications : List BurnApplication) where
  bySender : Address → Option (List UInt64)
  /-- Go has signed lengths. -/
  length_lt : applications.length < 2 ^ 63
  id_eq : ∀ (i : Nat) (application : BurnApplication),
    applications[i]? = some application → application.id = i
  /-- The applications of a sender, in the order of the list. -/
  indexed : ∀ sender, ((bySender sender).getD []).map UInt64.toNat =
    (applications.filter (·.fromAddress = sender)).map (·.id)

inductive WaitlistError
  /-- "empty request" -/
  | emptyRequest
  /-- "application not found: id = %d" -/
  | notFound (appId : UInt64)
  /-- "applications for %s not found" -/
  | noApplications (sender : Address)
  /-- "out of range, %s has %d applications, requested %d" -/
  | outOfRange (sender : Address) (length : Nat) (i : UInt64)
  /-- The panic "makeslice: cap out of range". -/
  | makeslice
  deriving DecidableEq, Repr

structure Allocator where
  maxCapacity : Nat
  maxCapacity_lt : maxCapacity < 2 ^ 63
  defaultLimit_le : 100 ≤ maxCapacity

structure PageRequest where
  offset : UInt64
  limit : UInt64
  countTotal : Bool

structure ListedApplication where
  application : BurnApplication
  isExecuted : Bool

structure ApplicationsResponse where
  applications : List ListedApplication
  total : UInt64

def defaultLimit : UInt64 := 100

def effectiveLimit (limit : UInt64) : UInt64 := if limit = 0 then defaultLimit else limit

def lastOnThisPage (total offset limit : UInt64) : UInt64 :=
  if total ≤ offset + limit - 1 then total - 1 else offset + limit - 1

section Paginate

variable (isExecuted : Nat → Bool) (item : UInt64 → Except WaitlistError BurnApplication)
  (total : UInt64)

def list (application : BurnApplication) : ListedApplication :=
  ⟨application, isExecuted application.id⟩

def collect (last i : UInt64) : Except WaitlistError (List ListedApplication) :=
  if i < total ∧ i ≤ last then
    match item i with
    | .error err => .error err
    | .ok application =>
      (collect last (i + 1)).map fun rest => list isExecuted application :: rest
  else .ok []
termination_by total.toNat - i.toNat
decreasing_by
  rename_i hlt
  have := UInt64.lt_iff_toNat_lt.mp hlt.1
  have := total.toNat_lt
  rw [UInt64.toNat_add, UInt64.toNat_one]
  omega

def paginate (alloc : Allocator) (pagination : Option PageRequest) :
    Except WaitlistError ApplicationsResponse :=
  let offset := (pagination.map PageRequest.offset).getD 0
  let limit := effectiveLimit ((pagination.map PageRequest.limit).getD defaultLimit)
  let countTotal := (pagination.map PageRequest.countTotal).getD false
  if alloc.maxCapacity < limit.toNat then .error .makeslice
  else
    let count := if countTotal then total else 0
    if total ≤ offset then .ok ⟨[], count⟩
    else (collect isExecuted item total (lastOnThisPage total offset limit) offset).map
      fun applications =>
      ⟨applications, count⟩

end Paginate

section Queries

variable {S : Type} (cfg : Config S) (waitlist : Waitlist cfg.applications)

def totalNumberOfApplications : UInt64 := .ofNat cfg.applications.length

def totalNumberOfApplicationsBySender (sender : Address) : UInt64 :=
  match waitlist.bySender sender with
  | none => 0
  | some apps => .ofNat apps.length

def applicationByID (appId : UInt64) : Except WaitlistError BurnApplication :=
  match getApplicationByID cfg appId.toNat with
  | some application => .ok application
  | none => .error (.notFound appId)

def getSendersApplicationIDByIndex (sender : Address) (i : UInt64) :
    Except WaitlistError BurnApplication :=
  match waitlist.bySender sender with
  | none => .error (.noApplications sender)
  | some apps =>
    match apps[i.toNat]? with
    | none => .error (.outOfRange sender apps.length i)
    | some appId => applicationByID cfg appId

def isApplicationExecuted (st : ChainState S) (appId : Nat) : Bool :=
  appId ∈ st.modules.ethiq.executed

structure GetApplicationsRequest where
  pagination : Option PageRequest

structure GetSendersApplicationsRequest where
  senderAddress : Address
  pagination : Option PageRequest

variable (alloc : Allocator) (st : ChainState S)

def getApplications : Option GetApplicationsRequest → Except WaitlistError ApplicationsResponse
  | none => .error .emptyRequest
  | some req => paginate (isApplicationExecuted st) (applicationByID cfg)
      (totalNumberOfApplications cfg) alloc req.pagination

def getSendersApplications :
    Option GetSendersApplicationsRequest → Except WaitlistError ApplicationsResponse
  | none => .error .emptyRequest
  | some req => paginate (isApplicationExecuted st)
      (getSendersApplicationIDByIndex cfg waitlist req.senderAddress)
      (totalNumberOfApplicationsBySender cfg waitlist req.senderAddress) alloc req.pagination

end Queries

/-! ## Which items a page holds -/

section Pages

variable {isExecuted : Nat → Bool} {item : UInt64 → Except WaitlistError BurnApplication}
  {total : UInt64} {items : List BurnApplication} {alloc : Allocator} {page : PageRequest}

def Pages (isExecuted : Nat → Bool) (items : List BurnApplication) (page : PageRequest)
    (result : Except WaitlistError ApplicationsResponse) : Prop :=
  ∃ response, result = .ok response ∧ response.applications =
    (items.extract page.offset.toNat
      (min (page.offset.toNat + page.limit.toNat) items.length)).map (list isExecuted)

/-- The limit can be allocated, and a limit of zero, which stands for the default, is only used
behind the end. -/
def Pageable (alloc : Allocator) (length : Nat) (page : PageRequest) : Prop :=
  page.limit.toNat ≤ alloc.maxCapacity ∧ (page.limit = 0 → length ≤ page.offset.toNat)

structure Describes (item : UInt64 → Except WaitlistError BurnApplication) (total : UInt64)
    (items : List BurnApplication) : Prop where
  length_lt : items.length < 2 ^ 63
  total_eq : total.toNat = items.length
  item_eq : ∀ (i : UInt64) application, items[i.toNat]? = some application →
    item i = .ok application

theorem Describes.collect_eq (h : Describes item total items) {last i : UInt64}
    (hlast : last.toNat < items.length) :
    collect isExecuted item total last i =
      .ok ((items.extract i.toNat (last.toNat + 1)).map (list isExecuted)) := by
  have := h.length_lt
  have := h.total_eq
  fun_induction collect isExecuted item total last i with
  | case1 i hlt err herr =>
    obtain ⟨hlt, -⟩ := hlt
    rw [UInt64.lt_iff_toNat_lt] at hlt
    cases herr.symm.trans (h.item_eq i _ (List.getElem?_eq_getElem (by omega)))
  | case2 i hlt application happlication ih =>
    obtain ⟨hlt, hle⟩ := hlt
    rw [UInt64.lt_iff_toNat_lt] at hlt
    rw [UInt64.le_iff_toNat_le] at hle
    have hsucc : (i + 1).toNat = i.toNat + 1 := by
      rw [UInt64.toNat_add, UInt64.toNat_one]
      omega
    have hi : i.toNat < items.length := by omega
    cases happlication.symm.trans (h.item_eq i _ (List.getElem?_eq_getElem hi))
    rw [ih, hsucc, List.extract_eq_take_drop, List.extract_eq_take_drop,
      List.drop_eq_getElem_cons hi, Nat.succ_sub_succ, Nat.succ_sub hle, List.take_succ_cons]
    rfl
  | case3 i hge =>
    rw [UInt64.lt_iff_toNat_lt, UInt64.le_iff_toNat_le] at hge
    rw [List.extract_eq_take_drop, Nat.sub_eq_zero_of_le (by omega)]
    rfl

theorem toNat_lastOnThisPage {offset limit : UInt64} (hoffset : offset < total)
    (htotal : total.toNat < 2 ^ 63) (hpositive : limit ≠ 0) (hlimit : limit.toNat < 2 ^ 63) :
    (lastOnThisPage total offset limit).toNat + 1 =
      min (offset.toNat + limit.toNat) total.toNat := by
  rw [UInt64.lt_iff_toNat_lt] at hoffset
  have hpos : 0 < limit.toNat := by
    rw [Nat.pos_iff_ne_zero, ← UInt64.toNat_zero]
    exact fun heq => hpositive (UInt64.toNat_inj.mp heq)
  have hsum : (offset + limit - 1).toNat = offset.toNat + limit.toNat - 1 := by
    rw [UInt64.toNat_sub, UInt64.toNat_add, UInt64.toNat_one]
    omega
  have hend : (total - 1).toNat = total.toNat - 1 := by
    rw [UInt64.toNat_sub, UInt64.toNat_one]
    omega
  unfold lastOnThisPage
  split
  · rename_i hle
    rw [UInt64.le_iff_toNat_le] at hle
    omega
  · rename_i hlt
    rw [UInt64.le_iff_toNat_le] at hlt
    omega

theorem effectiveLimit_ne_zero (limit : UInt64) : effectiveLimit limit ≠ 0 := by
  unfold effectiveLimit
  split
  · decide
  · assumption

theorem Describes.paginate_eq (h : Describes item total items)
    (halloc : (effectiveLimit page.limit).toNat ≤ alloc.maxCapacity) :
    paginate isExecuted item total alloc (some page) =
      .ok ⟨(items.extract page.offset.toNat (min (page.offset.toNat +
        (effectiveLimit page.limit).toNat) items.length)).map (list isExecuted),
        if page.countTotal then total else 0⟩ := by
  have hlength := h.length_lt
  rw [← h.total_eq] at hlength ⊢
  dsimp only [paginate, Option.map_some, Option.getD_some]
  rw [if_neg (Nat.not_lt.mpr halloc)]
  by_cases hbehind : total ≤ page.offset
  · rw [if_pos hbehind]
    rw [UInt64.le_iff_toNat_le] at hbehind
    rw [List.extract_eq_take_drop, Nat.sub_eq_zero_of_le (by omega)]
    rfl
  · rw [if_neg hbehind]
    have hlast := toNat_lastOnThisPage (UInt64.not_le.mp hbehind) hlength
      (effectiveLimit_ne_zero page.limit) (halloc.trans_lt alloc.maxCapacity_lt)
    rw [h.collect_eq (by rw [← h.total_eq]; omega), hlast]
    rfl

theorem Describes.pages_iff (h : Describes item total items) :
    Pages isExecuted items page (paginate isExecuted item total alloc (some page)) ↔
      Pageable alloc items.length page := by
  by_cases hzero : page.limit = 0
  · -- the default is used, and a page of it is empty behind the end only
    have heffective : effectiveLimit page.limit = defaultLimit := if_pos hzero
    have hlimit : page.limit.toNat = 0 := by rw [hzero]; rfl
    rw [Pages, h.paginate_eq (by rw [heffective]; exact alloc.defaultLimit_le), heffective]
    constructor
    · rintro ⟨_, ⟨⟩, hitems⟩
      have hlengths := congrArg List.length hitems
      simp only [List.length_map, List.extract_eq_take_drop, List.length_take, List.length_drop,
        show defaultLimit.toNat = 100 from rfl] at hlengths
      exact ⟨by omega, fun _ => by omega⟩
    · rintro ⟨-, hbehind⟩
      refine ⟨_, rfl, congrArg (List.map _) ?_⟩
      rw [Nat.min_eq_right (by have := hbehind hzero; omega),
        Nat.min_eq_right (by have := hbehind hzero; omega)]
  · have heffective : effectiveLimit page.limit = page.limit := if_neg hzero
    by_cases halloc : page.limit.toNat ≤ alloc.maxCapacity
    · rw [h.paginate_eq (by rwa [heffective]), heffective]
      exact ⟨fun _ => ⟨halloc, fun h => absurd h hzero⟩, fun _ => ⟨_, rfl, rfl⟩⟩
    · constructor
      · rintro ⟨response, hresult, -⟩
        dsimp only [paginate, Option.map_some, Option.getD_some] at hresult
        rw [if_pos (by rw [heffective]; exact Nat.not_le.mp halloc)] at hresult
        cases hresult
      · exact fun hpageable => absurd hpageable.1 halloc

end Pages

section Queries

variable {S : Type} {cfg : Config S} (waitlist : Waitlist cfg.applications)

theorem toNat_ofNat_of_lt {n : Nat} (h : n < 2 ^ 63) : (UInt64.ofNat n).toNat = n :=
  UInt64.toNat_ofNat_of_lt (h.trans (by decide))

include waitlist in
theorem describes_applications :
    Describes (applicationByID cfg) (totalNumberOfApplications cfg) cfg.applications where
  length_lt := waitlist.length_lt
  total_eq := toNat_ofNat_of_lt waitlist.length_lt
  item_eq i application happlication := by
    rw [applicationByID, getApplicationByID, happlication]

include waitlist in
theorem Waitlist.applicationByID_of_mem {application : BurnApplication}
    (hmem : application ∈ cfg.applications) {appId : UInt64} (hid : appId.toNat = application.id) :
    applicationByID cfg appId = .ok application := by
  obtain ⟨i, hi⟩ := List.mem_iff_getElem?.mp hmem
  rw [waitlist.id_eq i application hi] at hid
  rw [applicationByID, getApplicationByID, hid, hi]

theorem describes_sendersApplications (sender : Address) :
    Describes (getSendersApplicationIDByIndex cfg waitlist sender)
      (totalNumberOfApplicationsBySender cfg waitlist sender)
      (cfg.applications.filter (·.fromAddress = sender)) := by
  have hindexed := waitlist.indexed sender
  have hlength : (cfg.applications.filter (·.fromAddress = sender)).length < 2 ^ 63 :=
    (List.length_filter_le ..).trans_lt waitlist.length_lt
  have hlengths := congrArg List.length hindexed
  rw [List.length_map, List.length_map] at hlengths
  refine ⟨hlength, ?_, fun i application happlication => ?_⟩
  · unfold totalNumberOfApplicationsBySender
    cases hsender : waitlist.bySender sender with
    | none =>
      rw [hsender] at hlengths
      exact hlengths
    | some apps =>
      rw [hsender, Option.getD_some] at hlengths
      rw [← hlengths] at hlength ⊢
      exact toNat_ofNat_of_lt hlength
  · have hid := congrArg (·[i.toNat]?) hindexed
    rw [List.getElem?_map, List.getElem?_map, happlication, Option.map_some,
      Option.map_eq_some_iff] at hid
    obtain ⟨appId, hget, hid⟩ := hid
    unfold getSendersApplicationIDByIndex
    cases hsender : waitlist.bySender sender with
    | none =>
      rw [hsender] at hget
      cases hget
    | some apps =>
      rw [hsender, Option.getD_some] at hget
      dsimp only
      rw [hget]
      exact waitlist.applicationByID_of_mem
        (List.mem_of_mem_filter (List.mem_of_getElem? happlication)) hid

end Queries

/-- Both queries return the page that was asked for exactly if it is pageable. -/
theorem queries_page_iff {S : Type} (cfg : Config S) (waitlist : Waitlist cfg.applications)
    (alloc : Allocator) (st : ChainState S) (sender : Address) (page : PageRequest) :
    (Pages (isApplicationExecuted st) cfg.applications page
        (getApplications cfg alloc st (some ⟨some page⟩)) ↔
      Pageable alloc cfg.applications.length page) ∧
    (Pages (isApplicationExecuted st) (cfg.applications.filter (·.fromAddress = sender)) page
        (getSendersApplications cfg waitlist alloc st (some ⟨sender, some page⟩)) ↔
      Pageable alloc (cfg.applications.filter (·.fromAddress = sender)).length page) :=
  ⟨(describes_applications waitlist).pages_iff,
    (describes_sendersApplications waitlist sender).pages_iff⟩

def listedConfig : Config Unit :=
  { localConfig with
    applications :=
      [⟨0, 2, 3, .bank, 600, 0⟩, ⟨1, 4, 5, .ucdao, 300, 600⟩, ⟨2, 2, 3, .bank, 50, 900⟩] }

def listedBySender : Waitlist listedConfig.applications where
  bySender sender := if sender = 2 then some [0, 2] else if sender = 4 then some [1] else none
  length_lt := by decide
  id_eq
    | 0, _, rfl => rfl
    | 1, _, rfl => rfl
    | 2, _, rfl => rfl
  indexed sender := by
    by_cases htwo : sender = 2
    · subst htwo
      rfl
    · by_cases hfour : sender = 4
      · subst hfour
        rfl
      · simp [listedConfig, htwo, hfour, eq_comm]

def machine : Allocator := ⟨2 ^ 40, by decide, by decide⟩

/-- Where the queries panic they should return all three applications, and the two of the first
sender. -/
theorem largest_limit_panics :
    getApplications listedConfig machine genesis (some ⟨some ⟨0, 18446744073709551615, true⟩⟩) =
      .error .makeslice ∧
    getSendersApplications listedConfig listedBySender machine genesis
      (some ⟨2, some ⟨0, 18446744073709551615, true⟩⟩) = .error .makeslice ∧
    ¬ Pages (isApplicationExecuted genesis) listedConfig.applications
      ⟨0, 18446744073709551615, true⟩
      (getApplications listedConfig machine genesis
        (some ⟨some ⟨0, 18446744073709551615, true⟩⟩)) ∧
    ¬ Pages (isApplicationExecuted genesis) (listedConfig.applications.filter (·.fromAddress = 2))
      ⟨0, 18446744073709551615, true⟩
      (getSendersApplications listedConfig listedBySender machine genesis
        (some ⟨2, some ⟨0, 18446744073709551615, true⟩⟩)) := by
  refine ⟨rfl, rfl, ?_, ?_⟩
  · rintro ⟨response, ⟨⟩, -⟩
  · rintro ⟨response, ⟨⟩, -⟩

end Haqq.Ethiq
