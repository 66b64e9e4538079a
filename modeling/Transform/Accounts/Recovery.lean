import Mathlib.Data.List.Induction
import Transform.Accounts.LinkRuns
import Transform.Lib.Keyed

/-!
# Accounts.Recovery — recovery among all the accounts

The rows of `users` beside each other.  Registering compares the username and the address as they are; asking for a link
compares the address with `lower` in the database and takes the first row.  The request reaches an account exactly when the
account is that row (`recovers_iff`).
-/

namespace Transform.Accounts

open Lib Conversions

/-- The rows of `users`; no two have the same id, username or address. -/
structure UserTable where
  rows : List UserRow := []
  ids : (rows.map (·.id)).Nodup := by simp
  usernames : (rows.map (·.username)).Nodup := by simp
  emails : (rows.map (·.email)).Nodup := by simp

namespace UserTable

variable (users : UserTable)

/-- No row has the id, the username or the address of a new one. -/
def Admits (row : UserRow) : Prop :=
  ∀ other ∈ users.rows, row.id ≠ other.id ∧ row.username ≠ other.username ∧ row.email ≠ other.email

instance decidableAdmits (row : UserRow) : Decidable (users.Admits row) :=
  inferInstanceAs (Decidable (∀ other ∈ users.rows,
    row.id ≠ other.id ∧ row.username ≠ other.username ∧ row.email ≠ other.email))

/-- INSERT of a row that the unique columns admit. -/
def insert (row : UserRow) (h : users.Admits row) : UserTable where
  rows := row :: users.rows
  ids := List.nodup_cons.2 ⟨fun hmem => by
    obtain ⟨other, hother, heq⟩ := List.mem_map.1 hmem
    exact (h other hother).1 heq.symm, users.ids⟩
  usernames := List.nodup_cons.2 ⟨fun hmem => by
    obtain ⟨other, hother, heq⟩ := List.mem_map.1 hmem
    exact (h other hother).2.1 heq.symm, users.usernames⟩
  emails := List.nodup_cons.2 ⟨fun hmem => by
    obtain ⟨other, hother, heq⟩ := List.mem_map.1 hmem
    exact (h other hother).2.2 heq.symm, users.emails⟩

/-- UPDATE that leaves the unique columns alone. -/
def update (f : UserRow → UserRow)
    (h : ∀ row, (f row).id = row.id ∧ (f row).username = row.username ∧ (f row).email = row.email) : UserTable where
  rows := users.rows.map f
  ids := by
    rw [map_key fun row => (h row).1]
    exact users.ids
  usernames := by
    rw [map_key fun row => (h row).2.1]
    exact users.usernames
  emails := by
    rw [map_key fun row => (h row).2.2]
    exact users.emails

end UserTable

section Keys

variable (row : UserRow) (columns : LinkColumns) (kind : LinkKind) (now : Instant) (newPassword : Option String)

theorem keys_setLink : (row.setLink columns kind).id = row.id ∧ (row.setLink columns kind).username = row.username ∧
    (row.setLink columns kind).email = row.email := by
  cases kind <;> exact ⟨rfl, rfl, rfl⟩

theorem keys_consumed : (row.consumed now newPassword kind).id = row.id ∧
    (row.consumed now newPassword kind).username = row.username ∧
    (row.consumed now newPassword kind).email = row.email := by
  cases kind <;> exact ⟨rfl, rfl, rfl⟩

end Keys

theorem keys_ite {p : Prop} [Decidable p] {row changed : UserRow}
    (h : changed.id = row.id ∧ changed.username = row.username ∧ changed.email = row.email) :
    (if p then changed else row).id = row.id ∧ (if p then changed else row).username = row.username ∧
      (if p then changed else row).email = row.email := by
  split_ifs
  · exact h
  · exact ⟨rfl, rfl, rfl⟩

/-! ## One request among the accounts -/

section Requests

/-- What a request finds beside the accounts: the clock at each reading, the tokens as they are drawn, `lower` of the
database, the order in which the database returns rows, and the hash of a password. -/
structure RecoveryHost where
  clock : ℕ → Instant
  token : ℕ → String
  lower : String → String
  order : List UserRow → List UserRow
  order_perm : ∀ rows, (order rows).Perm rows
  hashPassword : String → String

/-- A message that was handed to the transport. -/
structure LinkMessage where
  kind : LinkKind
  recipient : String
  raw : String
  deriving DecidableEq, Repr

/-- The accounts, the id of the row that the session of the request holds, the readings and the draws so far, and the
messages. -/
structure Desk where
  users : UserTable := {}
  session : Option ℤ := none
  readings : ℕ := 0
  draws : ℕ := 0
  sent : List LinkMessage := []

namespace Desk

variable (host : RecoveryHost) (desk : Desk)

/-- The row that `scalars().first()` returns. -/
def first (p : UserRow → Bool) : Option UserRow := (host.order desk.users.rows).find? p

/-- The row that the conditional UPDATE takes. -/
def takes (kind : LinkKind) (tokenHash : String) (now : Instant) (row : UserRow) : Bool :=
  (row.link kind).tokenHash = some tokenHash && !isExpired (row.link kind).expiresAt now

def reply : (op : LinkOp) → Except AccountError op.Ans
  | .now => .ok (host.clock desk.readings)
  | .existing username email => .ok (desk.users.rows.any fun row => row.username = username || row.email = email)
  | .insertUser row => if desk.users.Admits row then .ok () else .error .integrity
  | .findByEmail email => .ok (desk.first host fun row => host.lower row.email = email)
  | .findByToken kind tokenHash => .ok (desk.first host fun row => (row.link kind).tokenHash = some tokenHash)
  | .tokenUrlsafe => .ok (host.token desk.draws)
  | .hashPassword password => .ok (host.hashPassword password)
  | .commit _ _ _ => .ok ()
  | .send _ _ _ => .ok ()
  | .consume kind tokenHash now _ => .ok (desk.users.rows.any (takes kind tokenHash now))

/-- The commit writes the row that the session holds. -/
def commit (kind : LinkKind) (loaded assigned : LinkColumns) : Desk :=
  { desk with
    users := desk.users.update
      (fun row => if desk.session = some row.id then row.setLink (loaded.flush assigned (row.link kind)) kind else row)
      fun row => keys_ite (keys_setLink row _ kind) }

def effect : Event LinkSig → Desk
  | ⟨.now, _, _, _⟩ => { desk with readings := desk.readings + 1 }
  | ⟨.insertUser row, _, true, _⟩ =>
    if h : desk.users.Admits row then { desk with users := desk.users.insert row h, session := some row.id }
    else desk
  | ⟨.findByEmail _, .ok row, _, _⟩ => { desk with session := row.map (·.id) }
  | ⟨.findByToken _ _, .ok row, _, _⟩ => { desk with session := row.map (·.id) }
  | ⟨.tokenUrlsafe, _, _, _⟩ => { desk with draws := desk.draws + 1 }
  | ⟨.commit kind loaded assigned, _, true, _⟩ => desk.commit kind loaded assigned
  | ⟨.send kind recipient raw, _, true, _⟩ => { desk with sent := ⟨kind, recipient, raw⟩ :: desk.sent }
  | ⟨.consume kind tokenHash now newPassword, _, true, _⟩ =>
    { desk with
      users := desk.users.update
        (fun row => if takes kind tokenHash now row = true then row.consumed now newPassword kind else row)
        fun row => keys_ite (keys_consumed row kind now newPassword) }
  | _ => desk

/-- The messages are delivered. -/
def env (host : RecoveryHost) : Env LinkSig Desk := ⟨reply host, effect⟩

/-- A message was sent to the address of the row, and the row has the hash of its token. -/
def Reached (ctx : LinkContext) (kind : LinkKind) (user : UserRow) : Prop :=
  ∃ raw issued sentAt, ⟨kind, user.email, raw⟩ ∈ desk.sent ∧
    user.setLink ⟨some (ctx.hashToken raw), some (issued + ctx.ttl kind), some sentAt⟩ kind ∈ desk.users.rows

end Desk

/-- What one request makes of the accounts. -/
def UserTable.after {α : Type} (users : UserTable) (host : RecoveryHost) (p : LinkM α) : Desk :=
  (p.run.exec (Desk.env host) { users }).2

/-- A request for a registration. -/
structure SignUp where
  userId : ℤ
  username : String
  email : String
  password : String

/-- The accounts after the registrations, one after the other. -/
def signedUp (ctx : LinkContext) (host : RecoveryHost) (requests : List SignUp) : UserTable :=
  requests.foldl (fun users r =>
    (users.after host (registerUser ctx r.userId r.username r.email r.password)).users) {}

/-- Both requests with the stored address reach the account. -/
structure Recovers (ctx : LinkContext) (host : RecoveryHost) (users : UserTable) (user : UserRow) : Prop where
  reset : (users.after host (forgotPassword ctx user.email)).Reached ctx .reset user
  verification : user.emailVerified = false →
    (users.after host (resendVerificationEmail ctx user.email)).Reached ctx .verification user

/-- The cooldown is over when the request reads the clock. -/
def Elapsed (ctx : LinkContext) (host : RecoveryHost) (kind : LinkKind) (user : UserRow) : Prop :=
  ∀ previous ∈ (user.link kind).sentAt, 0 < ctx.cooldown kind →
    cooldownOver previous (ctx.cooldown kind) (host.clock 0) = true

/-- The rows that the database returns before that of the account. -/
def UserTable.ahead (users : UserTable) (host : RecoveryHost) (user : UserRow) : List UserRow :=
  (host.order users.rows).takeWhile (·.id ≠ user.id)

end Requests

/-! ## What issuing asks -/

section Asking

variable {ctx : LinkContext} {user : UserRow} {kind : LinkKind} {φ : LinkOp → Prop}

theorem only_maySend {respectCooldown : Bool} {sentAt : Option Instant} {cooldown : Instant} (hnow : φ .now) :
    (maySend respectCooldown sentAt cooldown).Only φ := by
  unfold maySend cooldownElapsed
  split_ifs
  · split
    · exact only_pure
    · exact only_pure
  · split
    · exact only_pure
    · exact only_bind (only_ask (S := LinkSig) hnow) fun _ => only_pure
  · exact only_pure

theorem only_issueToken {ttl : Instant} (hnow : φ .now) (htoken : φ .tokenUrlsafe) : (issueToken ctx ttl).Only φ :=
  only_bind (only_ask (S := LinkSig) hnow) fun _ => only_bind (only_ask (S := LinkSig) htoken) fun _ => only_pure

theorem only_issueAndSend {issue : LinkM IssuedToken} {respectCooldown : Bool} (hnow : φ .now) (hissue : issue.Only φ)
    (hcommit : ∀ loaded assigned, φ (.commit kind loaded assigned)) (hsend : ∀ raw, φ (.send kind user.email raw)) :
    (issueAndSend ctx kind issue user respectCooldown).Only φ := by
  unfold issueAndSend
  refine only_bind (only_maySend hnow) fun allowed => ?_
  split_ifs
  · exact only_pure
  · refine only_bind hissue fun token => only_bind (only_ask (S := LinkSig) (hcommit _ _)) fun _ => ?_
    have hhanded : (onLinks (.send kind user.email token.raw)).Only φ := only_ask (hsend token.raw)
    refine only_bind (only_tryCatch (only_bind hhanded fun _ => only_pure) fun _ => only_pure) fun sent => ?_
    split_ifs
    · exact only_pure
    · exact only_bind (only_ask (S := LinkSig) hnow) fun _ =>
        only_bind (only_ask (S := LinkSig) (hcommit _ _)) fun _ => only_pure

end Asking

/-! ## What a request sends -/

section Sending

variable {ctx : LinkContext} {host : RecoveryHost} {desk : Desk} {user : UserRow} {kind : LinkKind} {address : String}

/-- A statement that sends nothing to the address. -/
def Spares (address : String) : LinkOp → Prop
  | .send _ recipient _ => recipient ≠ address
  | _ => True

def Desk.Spared (desk : Desk) (address : String) : Prop := ∀ message ∈ desk.sent, message.recipient ≠ address

theorem spared_effect {ev : Event LinkSig} (h : desk.Spared address) (hop : Spares address ev.op) :
    (desk.effect ev).Spared address := by
  obtain ⟨op, out, took, hok⟩ := ev
  cases op with
  | send kind recipient raw =>
    rcases took with _ | _
    · exact h
    · intro message hmessage
      rcases List.mem_cons.1 hmessage with rfl | hmessage
      · exact hop
      · exact h message hmessage
  | insertUser row =>
    rcases took with _ | _
    · exact h
    · dsimp only [Desk.effect]
      split_ifs
      · exact h
      · exact h
  | findByEmail email => rcases out with e | row <;> exact h
  | findByToken kind tokenHash => rcases out with e | row <;> exact h
  | commit kind loaded assigned => rcases took with _ | _ <;> exact h
  | consume kind tokenHash now newPassword => rcases took with _ | _ <;> exact h
  | _ => exact h

theorem spares_issueToken {ttl : Instant} : (issueToken ctx ttl).Only (Spares address) := only_issueToken trivial trivial

theorem spares_verification (hne : user.email ≠ address) :
    (issueAndSendVerificationEmail ctx user true).Only (Spares address) :=
  only_issueAndSend trivial spares_issueToken (fun _ _ => trivial) fun _ => hne

theorem spares_reset (hne : user.email ≠ address) :
    (issueAndSendPasswordResetEmail ctx user true).Only (Spares address) := by
  refine only_issueAndSend trivial ?_ (fun _ _ => trivial) fun _ => hne
  unfold issuePasswordResetToken
  split_ifs
  · exact only_throw
  · exact spares_issueToken

theorem spared_after {α : Type} {users : UserTable} {email : String} {f : Option UserRow → LinkM α}
    (hf : (f (Desk.first host { users } fun row => host.lower row.email = email)).Only (Spares address)) :
    (users.after host (onLinks (.findByEmail email) >>= f)).Spared address := by
  refine exec_of_wpe (R := fun desk : Desk => desk.Spared address) ?_
  rw [wpe_bind]
  refine (wpe_ask_answered rfl).2 ?_
  refine wpe_of_only_inv (R := fun desk : Desk => desk.Spared address) hf (fun _ _ _ _ => trivial)
    (fun _ _ h hop _ => spared_effect h hop) (fun _ _ h => h) (fun _ _ h => h) ?_
  exact fun message hmessage => by cases hmessage

end Sending

/-! ## Issuing for the row that was found -/

section Issuing

variable {ctx : LinkContext} {host : RecoveryHost} {desk : Desk} {users : UserTable} {user : UserRow} {kind : LinkKind}

theorem flush_loaded {loaded assigned : LinkColumns} : loaded.flush assigned loaded = assigned := by
  have hcolumn : ∀ {α : Type} [DecidableEq α] (l a : α), flushed l a l = a := by
    intro α _ l a
    exact flushed_eq_iff.2 (or_iff_not_imp_left.2 fun h => (not_not.1 h).symm)
  unfold LinkColumns.flush
  rw [hcolumn, hcolumn, hcolumn]

theorem setLink_setLink {columns columns' : LinkColumns} :
    (user.setLink columns kind).setLink columns' kind = user.setLink columns' kind := by
  cases kind <;> rfl

theorem setLink_link : user.setLink (user.link kind) kind = user := by
  cases kind <;> rfl

theorem mem_commit {loaded assigned : LinkColumns} (huser : user.setLink loaded kind ∈ desk.users.rows)
    (hsession : desk.session = some user.id) :
    user.setLink assigned kind ∈ (desk.commit kind loaded assigned).users.rows := by
  have hid : (user.setLink loaded kind).id = user.id := (keys_setLink user loaded kind).1
  refine List.mem_map.2 ⟨_, huser, ?_⟩
  rw [hid, if_pos hsession, link_setLink, flush_loaded, setLink_setLink]

theorem wpe_desk {op : LinkOp} {a : op.Ans} {Q : op.Ans → Desk → Prop} {R : AccountError → Desk → Prop}
    (hreply : desk.reply host op = .ok a) (hQ : Q a (desk.effect (.done op (.ok a)))) :
    wpe (.of (Desk.env host)) (onLinks op) Q R desk :=
  (wpe_ask_answered hreply).2 hQ

/-- The cooldown lets the message through, and reads the clock at most. -/
theorem wpe_maySend_elapsed {Q : Bool → Desk → Prop} (hreadings : desk.readings = 0) (h : Elapsed ctx host kind user)
    (hQ : ∀ readings, Q true { desk with readings }) :
    wpe (.of (Desk.env host)) (maySend true (user.link kind).sentAt (ctx.cooldown kind)) Q (fun _ _ => False) desk := by
  show wpe _ (cooldownElapsed _ _) _ _ _
  unfold cooldownElapsed
  split
  · exact hQ desk.readings
  · rename_i previous hprevious
    split_ifs with hcooldown
    · exact hQ desk.readings
    · rw [wpe_bind]
      refine wpe_desk rfl ?_
      have hover : cooldownOver previous (ctx.cooldown kind) (host.clock desk.readings) = true := by
        rw [hreadings]
        exact h previous hprevious (Int.not_le.1 hcooldown)
      rw [wpe_pure, hover]
      exact hQ _

theorem wpe_issueToken_desk {ttl : Instant} {Q : IssuedToken → Desk → Prop}
    (hQ : ∀ raw issued (desk' : Desk), desk'.users = desk.users → desk'.session = desk.session →
      Q ⟨raw, ctx.hashToken raw, issued + ttl⟩ desk') :
    wpe (.of (Desk.env host)) (issueToken ctx ttl) Q (fun _ _ => False) desk := by
  unfold issueToken
  rw [wpe_bind]
  refine wpe_desk rfl ?_
  rw [wpe_bind]
  refine wpe_desk rfl ?_
  exact hQ _ _ _ rfl rfl

theorem wpe_issueAndSend_reached (huser : user ∈ desk.users.rows) (hsession : desk.session = some user.id)
    (hreadings : desk.readings = 0) (h : Elapsed ctx host kind user) :
    wpe (.of (Desk.env host)) (issueAndSend ctx kind (issueToken ctx (ctx.ttl kind)) user true)
      (fun _ desk' => desk'.Reached ctx kind user) (fun _ _ => False) desk := by
  unfold issueAndSend
  rw [wpe_bind]
  refine wpe_maySend_elapsed hreadings h fun readings => ?_
  rw [if_neg (by decide), wpe_bind]
  refine wpe_issueToken_desk fun raw issued drawn husers hheld => ?_
  rw [← husers] at huser
  rw [← hheld] at hsession
  dsimp only
  rw [wpe_bind]
  refine wpe_desk rfl ?_
  have hloaded : user.setLink (user.link kind) kind ∈ drawn.users.rows := by
    rw [setLink_link]
    exact huser
  have hstored : user.setLink ⟨some (ctx.hashToken raw), some (issued + ctx.ttl kind), (user.link kind).sentAt⟩ kind ∈
      (drawn.commit kind (user.link kind) _).users.rows := mem_commit hloaded hsession
  rw [wpe_bind, wpe_tryCatch, wpe_bind]
  refine wpe_desk rfl ?_
  rw [wpe_pure, if_neg (by decide), wpe_bind]
  refine wpe_desk rfl ?_
  rw [wpe_bind]
  refine wpe_desk rfl ?_
  exact ⟨raw, issued, _, List.mem_cons_self .., mem_commit hstored hsession⟩

end Issuing

/-! ## Registering -/

section Registering

/-- The row that a registration inserts. -/
def SignUp.row (host : RecoveryHost) (r : SignUp) : UserRow :=
  { id := r.userId, username := r.username, email := r.email, hashedPassword := host.hashPassword r.password }

end Registering

/-! ## The row that is found -/

section Found

variable {ctx : LinkContext} {host : RecoveryHost} {users : UserTable} {user other : UserRow}

/-- The address finds the account exactly if the database folds it as the request does, and no row before it so. -/
theorem first_iff (huser : user ∈ users.rows) {email : String} :
    Desk.first host { users } (fun row => host.lower row.email = email) = some user ↔
      host.lower user.email = email ∧ ∀ other ∈ users.ahead host user, host.lower other.email ≠ email := by
  have hperm := host.order_perm users.rows
  have hids : ((host.order users.rows).map (·.id)).Nodup := (hperm.map _).nodup_iff.2 users.ids
  unfold Desk.first UserTable.ahead
  rw [find?_iff_takeWhile hids (hperm.mem_iff.2 huser)]
  simp only [decide_eq_true_eq, decide_eq_false_iff_not]

/-- A row that is found instead of the account has another address. -/
theorem email_ne_of_first (huser : user ∈ users.rows) {p : UserRow → Bool}
    (hne : Desk.first host { users } p ≠ some user) (hother : Desk.first host { users } p = some other) :
    other.email ≠ user.email := by
  intro hemail
  have hmem : other ∈ users.rows := (host.order_perm users.rows).mem_iff.1 (List.mem_of_find?_eq_some hother)
  obtain rfl : other = user := List.inj_on_of_nodup_map users.emails hmem huser hemail
  exact hne hother

theorem not_reached_of_spared {desk : Desk} {kind : LinkKind} (h : desk.Spared user.email) :
    ¬ desk.Reached ctx kind user := by
  rintro ⟨raw, issued, sentAt, hsent, -⟩
  exact h _ hsent rfl

theorem forgotPassword_reached (huser : user ∈ users.rows) (hactive : user.isActive = true) (httl : 0 < ctx.ttl .reset)
    (helapsed : Elapsed ctx host .reset user) :
    (users.after host (forgotPassword ctx user.email)).Reached ctx .reset user ↔
      Desk.first host { users } (fun row => host.lower row.email = ctx.lower (strip user.email)) = some user := by
  constructor
  · intro h
    by_contra hne
    refine not_reached_of_spared (spared_after ?_) h
    rcases hfirst : Desk.first host { users } fun row => host.lower row.email = ctx.lower (strip user.email) with _ | other
    · exact only_pure
    · have hemail : other.email ≠ user.email := email_ne_of_first huser hne hfirst
      dsimp only
      split_ifs
      · exact only_bind (spares_reset hemail) fun _ => only_pure
      · exact only_pure
  · intro hfirst
    refine exec_of_wpe (R := fun desk : Desk => desk.Reached ctx .reset user) ?_
    unfold forgotPassword
    rw [wpe_bind]
    refine wpe_desk rfl ?_
    rw [hfirst]
    dsimp only
    rw [hactive, if_pos rfl, wpe_bind, issueAndSendPasswordResetEmail, issuePasswordResetToken, if_neg (Int.not_le.2 httl)]
    exact wpe_mono (wpe_issueAndSend_reached huser rfl rfl helapsed) (fun _ _ h => h) fun _ _ h => h.elim

theorem resendVerificationEmail_reached (huser : user ∈ users.rows) (hactive : user.isActive = true)
    (hunverified : user.emailVerified = false) (helapsed : Elapsed ctx host .verification user) :
    (users.after host (resendVerificationEmail ctx user.email)).Reached ctx .verification user ↔
      Desk.first host { users } (fun row => host.lower row.email = ctx.lower (strip user.email)) = some user := by
  constructor
  · intro h
    by_contra hne
    refine not_reached_of_spared (spared_after ?_) h
    rcases hfirst : Desk.first host { users } fun row => host.lower row.email = ctx.lower (strip user.email) with _ | other
    · exact only_pure
    · have hemail : other.email ≠ user.email := email_ne_of_first huser hne hfirst
      dsimp only
      split_ifs
      · exact only_bind (spares_verification hemail) fun _ => only_pure
      · exact only_pure
  · intro hfirst
    refine exec_of_wpe (R := fun desk : Desk => desk.Reached ctx .verification user) ?_
    unfold resendVerificationEmail
    rw [wpe_bind]
    refine wpe_desk rfl ?_
    rw [hfirst]
    dsimp only
    rw [hactive, hunverified, if_pos (by decide), wpe_bind]
    exact wpe_mono (wpe_issueAndSend_reached huser rfl rfl helapsed) (fun _ _ h => h) fun _ _ h => h.elim

/-- Recovery reaches an account exactly if the database folds its address as the request does, and returns no row before it
whose address it folds the same way. -/
theorem recovers_iff (huser : user ∈ users.rows) (hactive : user.isActive = true) (httl : 0 < ctx.ttl .reset)
    (helapsed : ∀ kind, Elapsed ctx host kind user) : Recovers ctx host users user ↔
      host.lower user.email = ctx.lower (strip user.email) ∧
        ∀ other ∈ users.ahead host user, host.lower other.email ≠ ctx.lower (strip user.email) := by
  rw [← first_iff huser, ← forgotPassword_reached huser hactive httl (helapsed .reset)]
  constructor
  · exact fun h => h.reset
  · intro h
    refine ⟨h, fun hunverified => ?_⟩
    rw [resendVerificationEmail_reached huser hactive hunverified (helapsed .verification)]
    exact (forgotPassword_reached huser hactive httl (helapsed .reset)).1 h

end Found

/-! ## Addresses that differ in case -/

section Concrete

/-- `lower`, on ASCII. -/
def lowerAscii (text : String) : String := String.ofList (text.toList.map Char.toLower)

def foldingDay : LinkContext := { oneDay with lower := lowerAscii }

/-- A database that returns the rows as they were inserted, read at the time. -/
def inOrder (time : Instant) : RecoveryHost where
  clock _ := time
  token _ := "token-1"
  lower := lowerAscii
  order := List.reverse
  order_perm := List.reverse_perm
  hashPassword := id

def ada : SignUp := ⟨1, "ada", "ada@example.com", "correct horse"⟩

def capitalAda : SignUp := ⟨2, "Ada", "Ada@example.com", "battery staple"⟩

def grace : SignUp := ⟨2, "grace", "grace@example.com", "battery staple"⟩

/-- The row of an account whose registration has sent its link at time zero. -/
def rowOf (r : SignUp) : UserRow :=
  { r.row (inOrder 0) with verification := ⟨some "3f08aace122ee2368432c1ca23a049bc640bafbf00fdf33a52429f38ba12dbf9", some 86400000000, some 0⟩ }

theorem elapsed_rowOf (r : SignUp) : ∀ kind, Elapsed foldingDay (inOrder 60000000) kind (rowOf r)
  | .verification, previous, hprevious, _ => by
    obtain rfl : 0 = previous := Option.some.inj hprevious
    rfl
  | .reset, previous, hprevious, _ => by cases hprevious

theorem grace_recovers : Recovers foldingDay (inOrder 60000000) (signedUp foldingDay (inOrder 0) [ada, grace])
    (rowOf grace) :=
  (recovers_iff (by decide +kernel) rfl (by decide) (elapsed_rowOf grace)).2 (by decide +kernel)

/-- The account whose address differs in case from one that was registered before it is not reached. -/
theorem capitalAda_unreached : ¬ ∀ (requests : List SignUp) (user : UserRow),
    user ∈ (signedUp foldingDay (inOrder 0) requests).rows → user.isActive = true →
    (∀ kind, Elapsed foldingDay (inOrder 60000000) kind user) →
    Recovers foldingDay (inOrder 60000000) (signedUp foldingDay (inOrder 0) requests) user := by
  intro h
  obtain ⟨raw, issued, sentAt, hsent, -⟩ :=
    (h [ada, capitalAda] (rowOf capitalAda) (by decide +kernel) rfl (elapsed_rowOf capitalAda)).reset
  have hmessages : ((signedUp foldingDay (inOrder 0) [ada, capitalAda]).after (inOrder 60000000)
      (forgotPassword foldingDay (rowOf capitalAda).email)).sent = [⟨.reset, "ada@example.com", "token-1"⟩] := by
    decide +kernel
  rw [hmessages, List.mem_singleton, LinkMessage.mk.injEq] at hsent
  exact absurd hsent.2.1 (by decide)

end Concrete

end Transform.Accounts
