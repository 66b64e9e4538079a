import Transform.Erasure.Schema
import Transform.Accounts.User

/-!
# Erasure.Account — `delete_account`, and what it leaves

The account's rows are deleted table by table and the user's row last, in one transaction; foreign keys take more with
them.  `erased_iff` says for every database exactly when nothing is left of the user: no row that names it, none that refers
to a row that is gone, nothing that the runtime provider holds, and the rows of the others as they were.
-/

namespace Transform.Erasure

open Lib Conversions Accounts

/-! ## Deleting an account -/

section Delete

variable {D : Type}

/-- `DELETE FROM table WHERE column = value`, on the column that names a user. -/
def whereHolder (table : Table) (holder : Holder) (e : Entry D) : Bool :=
  decide (e.row.key.table = table) && decide (e.row.holder = some holder)

/-- The statements that remove what a user owns; `monthly_credits` is keyed by the text of the id. -/
def ownedRowDeletes (userId : ℤ) : List (Entry D → Bool) :=
  [whereHolder .conversionJobs (.id userId), whereHolder .userFiles (.id userId), whereHolder .userFolders (.id userId),
    whereHolder .apiKeys (.id userId), whereHolder .creditTransactions (.id userId),
    whereHolder .monthlyCredits (.text (toString userId)), whereHolder .userSubscriptions (.id userId)]

/-- The tables after the transaction. -/
def erase (userId : ℤ) (db : Database D) : Database D :=
  ((ownedRowDeletes userId).foldl Store.delete db).delete (whereHolder .users (.id userId))

structure DeleteAccountRequest where
  password : String
  confirm : String
  deriving DecidableEq, Repr

structure CurrentUser where
  id : ℤ
  hashedPassword : String
  deriving DecidableEq, Repr

def deleteAccountConfirmation : String := "DELETE"

/-- A container or a snapshot, with the workspace it is of. -/
structure HeldResource where
  ref : String
  workspaceId : String
  deriving DecidableEq, Repr

/-- The database, and what the runtime provider holds. -/
structure Deployment (D : Type) where
  db : Database D
  held : List HeldResource

/-- `delete_account`. -/
def deleteAccount (verifyPassword : String → String → Bool) (payload : DeleteAccountRequest) (currentUser : CurrentUser)
    (w : Deployment D) : Except AccountError (Deployment D) :=
  if payload.confirm ≠ deleteAccountConfirmation then
    .error (.coded 400 "INVALID_CONFIRMATION" s!"Type \"{deleteAccountConfirmation}\" to confirm deleting your account.")
  else if !verifyPassword payload.password currentUser.hashedPassword then
    .error (.coded 400 "INVALID_PASSWORD" "Password is incorrect.")
  else .ok { w with db := erase currentUser.id w.db }

end Delete

/-! ## What is to be left -/

section Erasure

variable {D : Type}

def Row.references (r : Row) : List RowKey := r.links.map (·.target) ++ r.looseReferences

/-- The row names a user other than the given one; where no column of it names a user, a row it hangs on does. -/
inductive OfAnother (db : Database D) (userId : ℤ) : Entry D → Prop
  | named {e : Entry D} {holder : Holder} (hh : e.row.holder = some holder) (hne : holder.isUser userId = false) :
      OfAnother db userId e
  | hanging {e q : Entry D} {l : Link Column RowKey} (hnone : e.row.holder = none) (hl : l ∈ e.row.links)
      (hq : q ∈ db.rows) (hk : q.row.key = l.target) (h : OfAnother db userId q) : OfAnother db userId e

/-- Nothing of the user is left, and everything of the others. -/
structure Erased (userId : ℤ) (before after : Deployment D) : Prop where
  unnamed : ∀ e ∈ after.db.rows, e.row.names userId = false
  no_dangling : ∀ e ∈ after.db.rows, ∀ k ∈ e.row.references, (∃ q ∈ before.db.rows, q.row.key = k) →
    ∃ q ∈ after.db.rows, q.row.key = k
  others : ∀ e ∈ before.db.rows, OfAnother before.db userId e → e ∈ after.db.rows
  nothing_held : ∀ h ∈ after.held, ∃ e ∈ after.db.rows, e.row.key = ⟨.workspaces, .text h.workspaceId⟩

/-- The row names its user in a column `subject`, without a foreign key. -/
def Row.bySubject : Row → Bool
  | .oauthCode _ _ _ | .oauthToken _ _ _ => true
  | _ => false

def Row.owns (userId : ℤ) (r : Row) : Bool := r.names userId && !r.bySubject

/-- The row is of the user, by a column other than `subject` or by a row it hangs on. -/
def Belongs (db : Database D) (userId : ℤ) (e : Entry D) : Prop := (schema D).Gone db.rows (fun e => e.row.owns userId) e

/-- What the deletion has to find: no authorization code and no token of the user, no row of another that refers to one of
the user's without a foreign key or hangs on one, and nothing held for a workspace of the user. -/
structure Severable (userId : ℤ) (w : Deployment D) : Prop where
  no_subject : ∀ e ∈ w.db.rows, e.row.bySubject = true → e.row.names userId = false
  not_referred : ∀ e ∈ w.db.rows, ¬ Belongs w.db userId e → ∀ k ∈ e.row.looseReferences, ∀ q ∈ w.db.rows, q.row.key = k →
    ¬ Belongs w.db userId q
  not_shared : ∀ e ∈ w.db.rows, OfAnother w.db userId e → ¬ Belongs w.db userId e ∧
    ∀ l ∈ e.row.links, l.onDelete = .setNull → ∀ q ∈ w.db.rows, q.row.key = l.target → ¬ Belongs w.db userId q
  nothing_held : ∀ h ∈ w.held, ∃ e ∈ w.db.rows, e.row.key = ⟨.workspaces, .text h.workspaceId⟩ ∧ ¬ Belongs w.db userId e

end Erasure

/-! ## The rows that go -/

section Rows

variable {D : Type} {userId : ℤ} {db : Database D} {e q : Entry D}

theorem ignores_whereHolder (table : Table) (holder : Holder) : Ignores (schema D) (whereHolder table holder) := by
  intro e cs
  show (decide ((e.row.clear cs).key.table = table) && decide ((e.row.clear cs).holder = some holder)) = _
  rw [key_clear, holder_clear]
  rfl

/-- What the statements choose. -/
def chosen (userId : ℤ) (e : Entry D) : Bool :=
  (ownedRowDeletes userId ++ [whereHolder .users (.id userId)]).any fun q => q e

theorem erase_eq : erase userId db = db.delete (chosen userId) := by
  have hfold : erase userId db = (ownedRowDeletes userId ++ [whereHolder .users (.id userId)]).foldl Store.delete db := by
    rw [List.foldl_append]
    rfl
  have hignores : ∀ q ∈ ownedRowDeletes userId ++ [whereHolder .users (.id userId)], Ignores (schema D) q := by
    intro q hq
    simp only [ownedRowDeletes, List.cons_append, List.nil_append, List.mem_cons, List.not_mem_nil, or_false] at hq
    rcases hq with rfl | rfl | rfl | rfl | rfl | rfl | rfl | rfl <;> exact ignores_whereHolder _ _
  rw [hfold]
  unfold chosen
  rw [ownedRowDeletes, List.cons_append, List.foldl_cons]
  exact delete_foldl fun q hq => hignores q (List.mem_cons_of_mem _ hq)

theorem names_iff {r : Row} : r.names userId = true ↔ ∃ holder, r.holder = some holder ∧ holder.isUser userId = true := by
  unfold Row.names
  rw [Option.any_eq_true]

theorem chosen_iff : chosen userId e = true ↔ ∃ t : Table × Holder,
    t ∈ [(.conversionJobs, .id userId), (.userFiles, .id userId), (.userFolders, .id userId), (.apiKeys, .id userId),
      (.creditTransactions, .id userId), (.monthlyCredits, .text (toString userId)), (.userSubscriptions, .id userId),
      (.users, .id userId)] ∧ e.row.key.table = t.1 ∧ e.row.holder = some t.2 := by
  simp [chosen, ownedRowDeletes, whereHolder]

theorem bySubject_iff {r : Row} : r.bySubject = true ↔ r.key.table = .mcpOauthCodes ∨ r.key.table = .mcpOauthTokens := by
  cases r <;> simp [Row.bySubject, Row.key]

theorem owns_of_chosen (h : chosen userId e = true) : e.row.owns userId = true := by
  obtain ⟨⟨table, holder⟩, ht, htable, hholder⟩ := chosen_iff.1 h
  have hnames : e.row.names userId = true := by
    refine names_iff.2 ⟨holder, hholder, ?_⟩
    simp only [List.mem_cons, Prod.mk.injEq, List.not_mem_nil, or_false] at ht
    rcases ht with ⟨-, rfl⟩ | ⟨-, rfl⟩ | ⟨-, rfl⟩ | ⟨-, rfl⟩ | ⟨-, rfl⟩ | ⟨-, rfl⟩ | ⟨-, rfl⟩ | ⟨-, rfl⟩ <;>
      simp [Holder.isUser]
  have hsubject : e.row.bySubject = false := by
    rw [Bool.eq_false_iff]
    intro hsubject
    rcases bySubject_iff.1 hsubject with hcode | hcode <;> rw [htable] at hcode <;> subst hcode <;> simp at ht
  unfold Row.owns
  rw [hnames, hsubject]
  rfl

theorem user_of_key {r : Row} (h : r.key = ⟨.users, .number userId⟩) : ∃ folderId, r = .user userId folderId := by
  cases r with
  | user id folderId =>
    simp only [Row.key, RowKey.mk.injEq, KeyValue.number.injEq, true_and] at h
    exact ⟨folderId, by rw [h]⟩
  | _ => simp [Row.key] at h

theorem chosen_user (h : e.row.key = ⟨.users, .number userId⟩) : chosen userId e = true := by
  obtain ⟨folderId, hrow⟩ := user_of_key h
  exact chosen_iff.2 ⟨(.users, .id userId), by simp, by rw [h], by rw [hrow]; rfl⟩

theorem gone_of_toUser {column : Column} (he : e ∈ db.rows) (hl : toUser column userId ∈ e.row.links) :
    (schema D).Gone db.rows (chosen userId) e := by
  obtain ⟨q, hq, hk⟩ := db.sound e he _ hl
  exact .cascade hl rfl hq hk (.chosen (chosen_user hk))

theorem chosen_or_toUser (h : e.row.owns userId = true) :
    chosen userId e = true ∨ ∃ column, toUser column userId ∈ e.row.links := by
  unfold Row.owns at h
  obtain ⟨hnames, hsubject⟩ := Bool.and_eq_true_iff.1 h
  obtain ⟨holder, hholder, huser⟩ := names_iff.1 hnames
  obtain ⟨row, rest⟩ := e
  cases row with
  | user | file | folder | apiKey | creditTransaction | monthlyCredit =>
    obtain rfl := Option.some.inj hholder
    obtain rfl := of_decide_eq_true huser
    exact .inl (chosen_iff.2 (by simp [Row.key, Row.holder]))
  | job row =>
    obtain ⟨n, hn, rfl⟩ := Option.map_eq_some_iff.1 hholder
    obtain rfl := of_decide_eq_true huser
    exact .inl (chosen_iff.2 (by simp [Row.key, Row.holder, hn]))
  | subscription =>
    obtain ⟨n, rfl, rfl⟩ := Option.map_eq_some_iff.1 hholder
    obtain rfl := of_decide_eq_true huser
    exact .inl (chosen_iff.2 (by simp [Row.key, Row.holder]))
  | conversation | agentGrant | savedWorkflow | workspace | execution =>
    obtain rfl := Option.some.inj hholder
    obtain rfl := of_decide_eq_true huser
    exact .inr ⟨.userId, by simp [Row.links]⟩
  | requestEvent | toolInvocation =>
    obtain rfl := Option.some.inj hholder
    obtain rfl := of_decide_eq_true huser
    exact .inr ⟨.accountId, by simp [Row.links]⟩
  | oauthCode | oauthToken => cases hsubject
  | message | oauthClient | workspaceRuntime | imageRevision => cases hholder

/-- **What goes** is what belongs to the user. -/
theorem gone_iff_belongs (he : e ∈ db.rows) : (schema D).Gone db.rows (chosen userId) e ↔ Belongs db userId e := by
  constructor
  · exact gone_of_imp fun _ => owns_of_chosen
  · intro h
    induction h with
    | chosen h =>
      rcases chosen_or_toUser h with hchosen | ⟨column, hl⟩
      · exact .chosen hchosen
      · exact gone_of_toUser he hl
    | cascade hl hc hq hk _ ih => exact .cascade hl hc hq hk (ih hq)

theorem mem_erase {e' : Entry D} : e' ∈ (erase userId db).rows ↔ ∃ e ∈ db.rows, ¬ Belongs db userId e ∧
    (schema D).unlink db.rows (db.removed (chosen userId)) e = e' := by
  rw [erase_eq, mem_delete]
  exact exists_congr fun e => and_congr_right fun he => and_congr_left fun _ => not_congr (gone_iff_belongs he)

theorem mem_erase_self (he : e ∈ db.rows) : e ∈ (erase userId db).rows ↔ ¬ Belongs db userId e ∧
    ∀ l ∈ e.row.links, l.onDelete = .setNull → ∀ q ∈ db.rows, q.row.key = l.target → ¬ Belongs db userId q := by
  rw [erase_eq, mem_delete_self he, gone_iff_belongs he]
  refine and_congr_right fun _ => forall_congr' fun l => forall_congr' fun _ => forall_congr' fun _ => ?_
  exact forall_congr' fun q => forall_congr' fun hq => forall_congr' fun _ => not_congr (gone_iff_belongs hq)

theorem key_erase (he : e ∈ db.rows) :
    (∃ e' ∈ (erase userId db).rows, e'.row.key = e.row.key) ↔ ¬ Belongs db userId e := by
  rw [erase_eq, ← gone_iff_belongs he]
  exact key_left he

end Rows

/-! ## What is left -/

section Left

variable {D : Type} {userId : ℤ} {db : Database D} {e : Entry D}

theorem holder_unlink (rows : List (Entry D)) (g : Entry D → Bool) :
    ((schema D).unlink rows g e).row.holder = e.row.holder := holder_clear _ _

theorem looseReferences_unlink (rows : List (Entry D)) (g : Entry D → Bool) :
    ((schema D).unlink rows g e).row.looseReferences = e.row.looseReferences := looseReferences_clear _ _

theorem not_belongs_of_subject (h : e.row.bySubject = true) : ¬ Belongs db userId e := by
  intro hb
  obtain ⟨row, rest⟩ := e
  cases hb with
  | chosen howns =>
    unfold Row.owns at howns
    rw [h] at howns
    simp at howns
  | cascade hl _ _ _ _ =>
    cases row with
    | oauthCode | oauthToken => cases hl
    | _ => cases h

theorem unnamed_iff : (∀ e ∈ (erase userId db).rows, e.row.names userId = false) ↔
    ∀ e ∈ db.rows, e.row.bySubject = true → e.row.names userId = false := by
  constructor
  · intro h e he hsubject
    have hleft := h _ (mem_erase.2 ⟨e, he, not_belongs_of_subject hsubject, rfl⟩)
    unfold Row.names at hleft ⊢
    rwa [holder_unlink] at hleft
  · intro h e' he'
    obtain ⟨e, he, hleft, rfl⟩ := mem_erase.1 he'
    unfold Row.names
    rw [holder_unlink]
    by_contra hnames
    rw [Bool.not_eq_false] at hnames
    rcases hsubject : e.row.bySubject with _ | _
    · refine hleft (.chosen ?_)
      show (e.row.names userId && !e.row.bySubject) = true
      unfold Row.names
      rw [hnames, hsubject]
      rfl
    · have hnamed := h e he hsubject
      unfold Row.names at hnamed
      rw [hnamed] at hnames
      cases hnames

theorem no_dangling_iff : (∀ e ∈ (erase userId db).rows, ∀ k ∈ e.row.references, (∃ q ∈ db.rows, q.row.key = k) →
      ∃ q ∈ (erase userId db).rows, q.row.key = k) ↔
    ∀ e ∈ db.rows, ¬ Belongs db userId e → ∀ k ∈ e.row.looseReferences, ∀ q ∈ db.rows, q.row.key = k →
      ¬ Belongs db userId q := by
  constructor
  · rintro h e he hleft k hk q hq rfl
    refine (key_erase hq).1 (h _ (mem_erase.2 ⟨e, he, hleft, rfl⟩) _ ?_ ⟨q, hq, rfl⟩)
    rw [Row.references, looseReferences_unlink]
    exact List.mem_append_right _ hk
  · rintro h e' he' k hk ⟨q, hq, rfl⟩
    rcases List.mem_append.1 hk with hlink | hloose
    · obtain ⟨l, hl, htarget⟩ := List.mem_map.1 hlink
      obtain ⟨q', hq', hkey⟩ := (erase userId db).sound e' he' l hl
      exact ⟨q', hq', hkey.trans htarget⟩
    · obtain ⟨e, he, hleft, rfl⟩ := mem_erase.1 he'
      rw [looseReferences_unlink] at hloose
      exact (key_erase hq).2 (h e he hleft _ hloose q hq rfl)

theorem others_iff : (∀ e ∈ db.rows, OfAnother db userId e → e ∈ (erase userId db).rows) ↔
    ∀ e ∈ db.rows, OfAnother db userId e → ¬ Belongs db userId e ∧
      ∀ l ∈ e.row.links, l.onDelete = .setNull → ∀ q ∈ db.rows, q.row.key = l.target → ¬ Belongs db userId q :=
  forall_congr' fun _ => forall_congr' fun he => forall_congr' fun _ => mem_erase_self he

theorem held_iff {held : List HeldResource} :
    (∀ h ∈ held, ∃ e ∈ (erase userId db).rows, e.row.key = ⟨.workspaces, .text h.workspaceId⟩) ↔
      ∀ h ∈ held, ∃ e ∈ db.rows, e.row.key = ⟨.workspaces, .text h.workspaceId⟩ ∧ ¬ Belongs db userId e := by
  refine forall_congr' fun h => forall_congr' fun _ => ?_
  constructor
  · rintro ⟨e', he', hk⟩
    obtain ⟨e, he, hleft, rfl⟩ := mem_erase.1 he'
    have hkey : ((schema D).unlink db.rows (db.removed (chosen userId)) e).row.key = e.row.key := key_clear _ _
    exact ⟨e, he, hkey.symm.trans hk, hleft⟩
  · rintro ⟨e, he, hk, hleft⟩
    obtain ⟨e', he', hkey⟩ := (key_erase he).2 hleft
    exact ⟨e', he', hkey.trans hk⟩

theorem deleteAccount_ok {verifyPassword : String → String → Bool} {payload : DeleteAccountRequest}
    {currentUser : CurrentUser} {w w' : Deployment D} (h : deleteAccount verifyPassword payload currentUser w = .ok w') :
    w' = { w with db := erase currentUser.id w.db } := by
  unfold deleteAccount at h
  split_ifs at h
  exact (Except.ok.inj h).symm

end Left

/-! ## Complete erasure -/

section Complete

variable {D : Type}

/-- **Complete erasure**: after an account is deleted nothing of the user is left and everything of the others is, exactly
if there was no authorization code and no token of the user, no row of another that referred to one of the user's without a
foreign key or hung on one, and nothing held for a workspace of the user. -/
theorem erased_iff {verifyPassword : String → String → Bool} {payload : DeleteAccountRequest} {currentUser : CurrentUser}
    {w w' : Deployment D} (h : deleteAccount verifyPassword payload currentUser w = .ok w') :
    Erased currentUser.id w w' ↔ Severable currentUser.id w := by
  obtain rfl := deleteAccount_ok h
  constructor
  · rintro ⟨hunnamed, hdangling, hothers, hheld⟩
    exact ⟨unnamed_iff.1 hunnamed, no_dangling_iff.1 hdangling, others_iff.1 hothers, held_iff.1 hheld⟩
  · rintro ⟨hsubject, hreferred, hshared, hheld⟩
    exact ⟨unnamed_iff.2 hsubject, no_dangling_iff.2 hreferred, others_iff.2 hshared, held_iff.2 hheld⟩

def twoUsers : List (Entry Unit) :=
  [⟨.user 7 none, ()⟩, ⟨.user 8 none, ()⟩, ⟨.workspace "ws-1" 7, ()⟩, ⟨.workspaceRuntime "rt-1" "ws-1" none, ()⟩,
    ⟨.agentGrant "grant-1" 7 none, ()⟩, ⟨.oauthToken "hash-1" "grant-1" "7", ()⟩, ⟨.apiKey "key-8" 8, ()⟩]

theorem twoUsers_keys : (twoUsers.map (schema Unit).key).Nodup := by decide

theorem twoUsers_sound : ∀ r ∈ twoUsers, ∀ l ∈ (schema Unit).links r, ∃ q ∈ twoUsers, (schema Unit).key q = l.target := by
  decide

def inUse : Deployment Unit := ⟨⟨twoUsers, twoUsers_keys, twoUsers_sound⟩, [⟨"container-1", "ws-1"⟩]⟩

/-- A check of the one password there is. -/
def verifyOne (password hashed : String) : Bool := password = "hunter22" && hashed = "argon2:hunter22"

theorem erased_inUse : Erased 7 inUse { inUse with db := erase 7 inUse.db } ↔ Severable 7 inUse :=
  @erased_iff Unit verifyOne ⟨"hunter22", "DELETE"⟩ ⟨7, "argon2:hunter22"⟩ inUse { inUse with db := erase 7 inUse.db } rfl

/-- The token of the user is left, and the container of the workspace. -/
theorem account_not_erased : ¬ ∀ (verifyPassword : String → String → Bool) (payload : DeleteAccountRequest)
    (currentUser : CurrentUser) (w w' : Deployment Unit), deleteAccount verifyPassword payload currentUser w = .ok w' →
    Erased currentUser.id w w' := by
  intro h
  have herased := h verifyOne ⟨"hunter22", "DELETE"⟩ ⟨7, "argon2:hunter22"⟩ inUse { inUse with db := erase 7 inUse.db } rfl
  have htoken : (⟨.oauthToken "hash-1" "grant-1" "7", ()⟩ : Entry Unit) ∈ inUse.db.rows := by simp [inUse, twoUsers]
  have hunnamed := unnamed_iff.1 herased.unnamed _ htoken rfl
  revert hunnamed
  decide

end Complete

end Transform.Erasure
