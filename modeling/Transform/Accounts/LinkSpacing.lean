import Transform.Accounts.LinkRuns
import Transform.Lib.Cooldown

/-!
# Accounts.LinkSpacing — the time between two emails of a kind

Resending a verification link and asking for a reset wait for the cooldown since the last message, whose time is written
after it was sent.

* `wp_mail`: a request hands a message over only when the cooldown since the stamp that it has read was over, and sets the
  stamp only afterwards.
* `links_spaced`: where every message is handed over by a request whose read showed all messages before it, any two of a
  kind were begun a cooldown apart.
-/

namespace Transform.Accounts

open Lib Conversions

variable {ctx : LinkContext} {i j : ℕ} {kind : LinkKind}

/-! ## The log of the messages -/

section Log

/-- What an exchange says of the messages of a kind. -/
def linkEntry (kind : LinkKind) : Event LinkSig → LogEntry
  | ⟨.findByEmail _, .ok _, _, _⟩ => .read
  | ⟨.findByToken _ _, .ok _, _, _⟩ => .read
  | ⟨.now, .ok time, _, _⟩ => .clock time
  | ⟨.tokenUrlsafe, .ok _, _, _⟩ => .begun
  | ⟨.send sentKind _ _, .ok _, _, _⟩ => if sentKind = kind then .hand else .idle
  | ⟨.commit writtenKind loaded assigned, _, true, _⟩ =>
    if writtenKind = kind ∧ assigned.sentAt ≠ loaded.sentAt then .note else .idle
  | _ => .idle

abbrev LinkLogs : Type := LinkKind → SendLog

def enterLinks (logs : LinkLogs) (i : ℕ) (ev : Event LinkSig) : LinkLogs := fun kind => (logs kind).enter i (linkEntry kind ev)

/-- The requests on one account, with the log of its messages. -/
def mailSystem (ctx : LinkContext) : Sys LinkSig := (linkSystem ctx).logged LinkLogs enterLinks

end Log

/-! ## One request -/

section Request

/-- What a request has of the account: the row it has read, its last reading of the clock, the reading at which it began its
message, and the kind of a message that it has handed over. -/
structure MailGrip where
  row : Option UserRow := none
  reading : Option Instant := none
  began : Option Instant := none
  handed : Option LinkKind := none

/-- The message was begun when the cooldown since the stamp that was read was over. -/
def MailGrip.Clear (ctx : LinkContext) (g : MailGrip) (kind : LinkKind) (row : UserRow) : Prop :=
  ∃ began ∈ g.began, ∀ s ∈ (row.link kind).sentAt, s + ctx.cooldown kind ≤ began

def MailGrip.May (ctx : LinkContext) (g : MailGrip) : LinkOp → Prop
  | .send kind _ _ => ∃ row ∈ g.row, g.Clear ctx kind row
  | .commit kind loaded assigned => assigned.sentAt = loaded.sentAt ∨
      g.handed = some kind ∧ (∃ row ∈ g.row, loaded.sentAt = (row.link kind).sentAt ∧ g.Clear ctx kind row) ∧
        ∃ time ∈ g.reading, assigned.sentAt = some time
  | _ => True

/-- The clock does not go back, and the account is there. -/
def MailGrip.Rely (g : MailGrip) : Event LinkSig → Prop
  | ⟨.now, .ok time, _, _⟩ => ∀ reading ∈ g.reading, reading ≤ time
  | ⟨.insertUser _, .ok _, _, _⟩ => False
  | _ => True

def MailGrip.step (g : MailGrip) : Event LinkSig → MailGrip
  | ⟨.findByEmail _, .ok row, _, _⟩ => { g with row := row, began := none, handed := none }
  | ⟨.findByToken _ _, .ok row, _, _⟩ => { g with row := row, began := none, handed := none }
  | ⟨.now, .ok time, _, _⟩ => { g with reading := some time }
  | ⟨.tokenUrlsafe, .ok _, _, _⟩ => { g with began := g.reading, handed := none }
  | ⟨.send kind _ _, .ok _, _, _⟩ => { g with handed := some kind }
  | ⟨.commit _ loaded assigned, _, _, _⟩ => { g with handed := if assigned.sentAt = loaded.sentAt then g.handed else none }
  | _ => g

def mailMonitor (ctx : LinkContext) : Monitor LinkSig MailGrip := ⟨MailGrip.May ctx, MailGrip.Rely, MailGrip.step⟩

variable {g : MailGrip} {user : UserRow}

theorem wpe_mail {op : LinkOp} {Q : op.Ans → MailGrip → Prop} (hmay : g.May ctx op)
    (hQ : ∀ a, g.Rely (.done op (.ok a)) → Q a (g.step (.done op (.ok a)))) :
    wpe (mailMonitor ctx) (onLinks op) Q (fun _ _ => True) g :=
  wpe_ask.2 ⟨hmay, hQ, fun _ _ _ _ => trivial⟩

theorem wpe_maySend_mail (hg : g.row = some user) (hcooldown : 0 < ctx.cooldown kind) :
    wpe (mailMonitor ctx) (maySend true (user.link kind).sentAt (ctx.cooldown kind))
      (fun allowed g' => allowed = true → g'.row = some user ∧
        ∀ s ∈ (user.link kind).sentAt, ∃ reading ∈ g'.reading, s + ctx.cooldown kind ≤ reading) (fun _ _ => True) g := by
  show wpe _ (cooldownElapsed _ _) _ _ _
  rcases (user.link kind).sentAt with _ | previous
  · exact fun _ => ⟨hg, fun s hs => by cases hs⟩
  · rw [cooldownElapsed, if_neg (Int.not_le.2 hcooldown), wpe_bind]
    refine wpe_mail trivial fun now _ => ?_
    rw [wpe_pure]
    intro hover
    refine ⟨hg, fun s hs => ⟨now, rfl, ?_⟩⟩
    obtain rfl : previous = s := Option.some.inj hs
    exact of_decide_eq_true hover

theorem wpe_issueToken_mail {ttl : Instant} (hg : g.row = some user)
    (hover : ∀ s ∈ (user.link kind).sentAt, ∃ reading ∈ g.reading, s + ctx.cooldown kind ≤ reading) :
    wpe (mailMonitor ctx) (issueToken ctx ttl) (fun _ g' => g'.row = some user ∧ g'.Clear ctx kind user)
      (fun _ _ => True) g := by
  unfold issueToken
  rw [wpe_bind]
  refine wpe_mail trivial fun now hnow => ?_
  rw [wpe_bind]
  refine wpe_mail trivial fun raw _ => ?_
  refine ⟨hg, now, rfl, fun s hs => ?_⟩
  obtain ⟨reading, hreading, hle⟩ := hover s hs
  exact Int.le_trans hle (hnow reading hreading)

theorem wpe_issueAndSend_mail {issue : LinkM IssuedToken} (hg : g.row = some user) (hcooldown : 0 < ctx.cooldown kind)
    (hissue : ∀ g : MailGrip, g.row = some user →
      (∀ s ∈ (user.link kind).sentAt, ∃ reading ∈ g.reading, s + ctx.cooldown kind ≤ reading) →
        wpe (mailMonitor ctx) issue (fun _ g' => g'.row = some user ∧ g'.Clear ctx kind user) (fun _ _ => True) g) :
    wpe (mailMonitor ctx) (issueAndSend ctx kind issue user true) (fun _ _ => True) (fun _ _ => True) g := by
  unfold issueAndSend
  rw [wpe_bind]
  refine wpe_mono (wpe_maySend_mail hg hcooldown) ?_ fun _ _ h => h
  intro allowed g' hallowed
  rcases allowed with _ | _
  · trivial
  obtain ⟨hrow, hover⟩ := hallowed rfl
  rw [if_neg (by decide), wpe_bind]
  refine wpe_mono (hissue g' hrow hover) ?_ fun _ _ h => h
  rintro token g ⟨hrow, hclear⟩
  dsimp only
  rw [wpe_bind]
  refine wpe_mail (.inl rfl) fun _ _ => ?_
  rw [wpe_bind, wpe_tryCatch, wpe_bind]
  refine wpe_ask.2 ⟨⟨user, hrow, hclear⟩, fun _ _ => ?_, fun _ _ _ _ => trivial⟩
  rw [wpe_pure, if_neg (by decide), wpe_bind]
  refine wpe_mail trivial fun now _ => ?_
  rw [wpe_bind]
  exact wpe_mail (.inr ⟨rfl, ⟨user, hrow, rfl, hclear⟩, now, rfl, rfl⟩) fun _ _ => trivial

theorem wpe_registerUser_mail {userId : ℤ} {username email password : String} :
    wpe (mailMonitor ctx) (registerUser ctx userId username email password) (fun _ _ => True) (fun _ _ => True) g := by
  unfold registerUser
  rw [wpe_bind]
  refine wpe_mail trivial fun found _ => ?_
  split_ifs
  · trivial
  · rw [wpe_bind]
    refine wpe_mail trivial fun hashedPassword _ => ?_
    rw [wpe_bind, wpe_tryCatch]
    exact wpe_ask.2 ⟨trivial, fun _ hrely => hrely.elim, fun _ _ _ _ => trivial⟩

theorem wpe_resendVerificationEmail_mail {email : String} (hcooldown : 0 < ctx.cooldown .verification) :
    wpe (mailMonitor ctx) (resendVerificationEmail ctx email) (fun _ _ => True) (fun _ _ => True) g := by
  unfold resendVerificationEmail
  rw [wpe_bind]
  refine wpe_mail trivial fun row _ => ?_
  rcases row with _ | user
  · trivial
  · dsimp only
    split_ifs
    · rw [wpe_bind]
      exact wpe_mono (wpe_issueAndSend_mail rfl hcooldown fun _ hg hover => wpe_issueToken_mail hg hover)
        (fun _ _ _ => trivial) fun _ _ h => h
    · trivial

theorem wpe_forgotPassword_mail {email : String} (hcooldown : 0 < ctx.cooldown .reset) :
    wpe (mailMonitor ctx) (forgotPassword ctx email) (fun _ _ => True) (fun _ _ => True) g := by
  unfold forgotPassword
  rw [wpe_bind]
  refine wpe_mail trivial fun row _ => ?_
  rcases row with _ | user
  · trivial
  · dsimp only
    split_ifs
    · rw [wpe_bind]
      refine wpe_mono (wpe_issueAndSend_mail rfl hcooldown fun g hg hover => ?_) (fun _ _ _ => trivial) fun _ _ h => h
      unfold issuePasswordResetToken
      split_ifs
      · trivial
      · exact wpe_issueToken_mail hg hover
    · trivial

theorem wpe_verifyEmail_mail {token : String} :
    wpe (mailMonitor ctx) (verifyEmail ctx token) (fun _ _ => True) (fun _ _ => True) g := by
  unfold verifyEmail
  rw [wpe_bind]
  refine wpe_mail trivial fun now _ => ?_
  rw [wpe_bind]
  refine wpe_mail trivial fun row _ => ?_
  rcases row with _ | user
  · trivial
  · dsimp only
    split_ifs
    · rw [wpe_bind]
      exact wpe_mail (.inl rfl) fun _ _ => trivial
    · rw [wpe_bind]
      exact wpe_mail (.inl rfl) fun _ _ => trivial
    · rw [wpe_bind]
      refine wpe_mail trivial fun found _ => ?_
      split_ifs <;> trivial

theorem wpe_resetPassword_mail {token newPassword : String} :
    wpe (mailMonitor ctx) (resetPassword ctx token newPassword) (fun _ _ => True) (fun _ _ => True) g := by
  unfold resetPassword
  rw [wpe_bind]
  refine wpe_mail trivial fun now _ => ?_
  rw [wpe_bind]
  refine wpe_mail trivial fun row _ => ?_
  rcases row with _ | user
  · trivial
  · dsimp only
    split_ifs
    · rw [wpe_bind]
      exact wpe_mail (.inl rfl) fun _ _ => trivial
    · rw [wpe_bind]
      refine wpe_mail trivial fun newPasswordHash _ => ?_
      rw [wpe_bind]
      refine wpe_mail trivial fun found _ => ?_
      split_ifs <;> trivial

theorem wp_mail (hcooldown : ∀ kind, 0 < ctx.cooldown kind) (request : LinkRequest) :
    wp (mailMonitor ctx) (request.program ctx) (fun _ _ => True) {} := by
  have hthread : ∀ {α : Type} {p : LinkM α}, wpe (mailMonitor ctx) p (fun _ _ => True) (fun _ _ => True) {} →
      wp (mailMonitor ctx) (thread p) (fun _ _ => True) {} := fun h => wp_thread_of_wpe h
  cases request with
  | register userId username email password => exact hthread wpe_registerUser_mail
  | resend email => exact hthread (wpe_resendVerificationEmail_mail (hcooldown .verification))
  | forgot email => exact hthread (wpe_forgotPassword_mail (hcooldown .reset))
  | verify token => exact hthread wpe_verifyEmail_mail
  | resetPassword token newPassword => exact hthread wpe_resetPassword_mail

end Request

/-! ## What the account keeps -/

section Keeps

/-- The account and its log. -/
abbrev MailWorld : Type := LinkWorld × LinkLogs

/-- The time of the last message of the kind, as it is stored. -/
def stampOf (w : LinkWorld) (kind : LinkKind) : Option Instant := w.user.bind fun row => (row.link kind).sentAt

structure MailInv (ctx : LinkContext) (w : MailWorld) : Prop where
  user : w.1.user ≠ none
  sound : ∀ kind, (w.2 kind).Sound (ctx.cooldown kind) (stampOf w.1 kind)

/-- What a request's record of the account says of the log. -/
structure MailGrip.Borne (w : MailWorld) (i : ℕ) (g : MailGrip) : Prop where
  row : ∀ row ∈ g.row, ∀ kind, (w.2 kind).Reader (row.link kind).sentAt i
  reading : ∀ time ∈ g.reading, time ≤ w.1.clock ∧ ∀ kind, (w.2 kind).reading i = time
  began : ∀ began ∈ g.began, (∃ time ∈ g.reading, began ≤ time) ∧ ∀ kind, (w.2 kind).began i = began
  handed : ∀ kind, g.handed = some kind → (w.2 kind).Holder i

/-- A message is handed over in turn. -/
def HandsInTurn (w : MailWorld) (i : ℕ) : Event LinkSig → Prop
  | ⟨.send kind _ _, .ok _, _, _⟩ => (w.2 kind).InTurn i
  | _ => True

variable {w : LinkWorld} {logs : LinkLogs} {user : UserRow} {ev : Event LinkSig} {g : MailGrip} {loaded assigned : LinkColumns}

theorem stamp_commit_of_ne {written : LinkKind} (h : kind ≠ written) :
    stampOf (w.commit i written loaded assigned) kind = stampOf w kind := by
  unfold stampOf LinkWorld.commit
  rcases w.user with _ | row
  · rfl
  · exact congrArg LinkColumns.sentAt (link_setLink_of_ne h)

theorem stamp_commit (huser : w.user ≠ none) : stampOf (w.commit i kind loaded assigned) kind =
    if assigned.sentAt = loaded.sentAt then stampOf w kind else assigned.sentAt := by
  obtain ⟨row, hrow⟩ := Option.ne_none_iff_exists'.1 huser
  unfold stampOf LinkWorld.commit
  rw [hrow]
  exact congrArg LinkColumns.sentAt link_setLink

theorem sentAt_consumed {row : UserRow} {now : Instant} {newPassword : Option String} {taken : LinkKind} :
    ((row.consumed now newPassword taken).link kind).sentAt = (row.link kind).sentAt := by
  cases taken <;> cases kind <;> rfl

theorem stamp_apply (huser : w.user ≠ none) (hall : w.Allowed ctx ev)
    (hop : ∀ kind loaded assigned, ev.op ≠ .commit kind loaded assigned) : stampOf (w.apply ctx i ev) kind = stampOf w kind := by
  unfold LinkWorld.apply
  split
  · exact absurd (hall rfl) huser
  · rfl
  · rfl
  · exact absurd rfl (hop _ _ _)
  · split
    · rename_i row htakes
      obtain ⟨hrow, -⟩ := takes_some htakes
      unfold stampOf
      rw [hrow]
      exact sentAt_consumed
    · rfl
  · rfl

theorem due_of_may (hg : g.Borne (w, logs) i) (hmay : g.May ctx ev.op) (hturn : HandsInTurn (w, logs) i ev) :
    (linkEntry kind ev).Due (logs kind) i := by
  obtain ⟨op, out, took, hok⟩ := ev
  cases op with
  | send sentKind recipient raw =>
    rcases out with e | a
    · trivial
    · by_cases hkind : sentKind = kind
      · obtain ⟨row, hrow, -⟩ := hmay
        dsimp only [linkEntry]
        rw [if_pos hkind, ← hkind]
        exact ⟨hturn, _, hg.row row hrow sentKind⟩
      · dsimp only [linkEntry]
        rw [if_neg hkind]
        trivial
  | commit written loaded assigned =>
    rcases took with _ | _
    · trivial
    · dsimp only [linkEntry]
      split_ifs with hnote
      · obtain ⟨rfl, hstamp⟩ := hnote
        exact hg.handed written (hmay.resolve_left hstamp).1
      · trivial
  | findByEmail email => rcases out with e | a <;> trivial
  | findByToken kind tokenHash => rcases out with e | a <;> trivial
  | now => rcases out with e | a <;> trivial
  | tokenUrlsafe => rcases out with e | a <;> trivial
  | _ => trivial

theorem private_of_op (hsend : ∀ kind recipient raw, ev.op ≠ .send kind recipient raw)
    (hcommit : ∀ kind loaded assigned, ev.op ≠ .commit kind loaded assigned) : (linkEntry kind ev).Private := by
  unfold linkEntry
  split
  · trivial
  · trivial
  · trivial
  · trivial
  · exact absurd rfl (hsend _ _ _)
  · exact absurd rfl (hcommit _ _ _)
  · trivial

/-- A stamp is set by the request that has handed its message over. -/
theorem sound_commit (hw : MailInv ctx (w, logs)) (hg : g.Borne (w, logs) i) (hcooldown : 0 < ctx.cooldown kind)
    (hmay : g.May ctx (.commit kind loaded assigned)) {out : Except LinkSig.Err (LinkSig.Ans (.commit kind loaded assigned))}
    {hok : ∀ a, out = .ok a → true = true} :
    ((logs kind).enter i (linkEntry kind ⟨.commit kind loaded assigned, out, true, hok⟩)).Sound (ctx.cooldown kind)
      (stampOf (w.commit i kind loaded assigned) kind) := by
  rw [stamp_commit hw.user]
  dsimp only [linkEntry]
  by_cases hstamp : assigned.sentAt = loaded.sentAt
  · rw [if_pos hstamp, if_neg fun h => h.2 hstamp]
    exact hw.sound kind
  · rw [if_neg hstamp, if_pos ⟨rfl, hstamp⟩]
    obtain ⟨hhanded, ⟨row, -, -, began, hbegan, -⟩, time, htime, hassigned⟩ := hmay.resolve_left hstamp
    obtain ⟨⟨reading, hreading, hle⟩, hlog⟩ := hg.began began hbegan
    obtain rfl : reading = time := Option.some.inj (hreading.symm.trans htime)
    rw [hassigned]
    refine sound_note (hw.sound kind) (hg.handed kind hhanded) (Int.le_of_lt hcooldown) ?_
    exact Int.le_trans (Int.le_of_eq (hlog kind)) hle

theorem mailInv_apply (hcooldown : ∀ kind, 0 < ctx.cooldown kind) (hw : MailInv ctx (w, logs)) (hg : g.Borne (w, logs) i)
    (hmay : g.May ctx ev.op) (hall : w.Allowed ctx ev) (hturn : HandsInTurn (w, logs) i ev) :
    MailInv ctx (w.apply ctx i ev, enterLinks logs i ev) := by
  refine ⟨user_apply hw.user, fun kind => ?_⟩
  show ((logs kind).enter i (linkEntry kind ev)).Sound _ (stampOf (w.apply ctx i ev) kind)
  obtain ⟨op, out, took, hok⟩ := ev
  cases op with
  | send sentKind recipient raw =>
    rcases out with e | a
    · exact hw.sound kind
    · dsimp only [linkEntry]
      split_ifs with hkind
      · obtain ⟨row, hrow, began, hbegan, hclear⟩ := hmay
        subst hkind
        refine sound_hand (hw.sound sentKind) (hg.row row hrow sentKind) hturn fun s hs => ?_
        rw [(hg.began began hbegan).2 sentKind]
        exact hclear s hs
      · exact hw.sound kind
  | commit written loaded assigned =>
    rcases took with _ | _
    · exact hw.sound kind
    · by_cases hkind : kind = written
      · subst hkind
        exact sound_commit hw hg (hcooldown kind) hmay
      · show ((logs kind).enter i _).Sound _ (stampOf (w.commit i written loaded assigned) kind)
        rw [stamp_commit_of_ne hkind]
        dsimp only [linkEntry]
        rw [if_neg fun h => hkind h.1.symm]
        exact hw.sound kind
  | _ =>
    rw [stamp_apply hw.user hall fun _ _ _ h => by cases h]
    exact sound_private (hw.sound kind) (private_of_op (fun _ _ _ h => by cases h) fun _ _ _ h => by cases h)

theorem borne_other_mail {g' : MailGrip} (hw : MailInv ctx (w, logs)) (hg : g.Borne (w, logs) i) (hmay : g.May ctx ev.op)
    (hturn : HandsInTurn (w, logs) i ev) (hji : j ≠ i) (hg' : g'.Borne (w, logs) j) :
    g'.Borne (w.apply ctx i ev, enterLinks logs i ev) j where
  row row hrow kind := reader_other (hw.sound kind) (due_of_may hg hmay hturn) hji (hg'.row row hrow kind)
  reading time htime := by
    rw [clock_apply]
    exact ⟨(hg'.reading time htime).1, fun kind => (reading_other hji).trans ((hg'.reading time htime).2 kind)⟩
  began began hbegan := ⟨(hg'.began began hbegan).1, fun kind => (began_other hji).trans ((hg'.began began hbegan).2 kind)⟩
  handed kind hhanded := holder_other (hw.sound kind) (due_of_may hg hmay hturn) hji (hg'.handed kind hhanded)

/-- Where nothing is entered, what is known stays. -/
theorem borne_idle {w' : LinkWorld} {logs' : LinkLogs} {g' : MailGrip} (hg : g.Borne (w, logs) i) (hclock : w'.clock = w.clock)
    (hlogs : ∀ kind, logs' kind = logs kind) (hrow : g'.row = g.row) (hsame : g'.reading = g.reading)
    (hbegan : g'.began = g.began) (hhanded : g'.handed = g.handed ∨ g'.handed = none) : g'.Borne (w', logs') i := by
  obtain rfl : logs' = logs := funext hlogs
  refine ⟨?_, ?_, ?_, fun kind hkind => ?_⟩
  · rw [hrow]
    exact hg.row
  · rw [hsame, hclock]
    exact hg.reading
  · rw [hbegan, hsame]
    exact hg.began
  · rcases hhanded with heq | hnone
    · exact hg.handed kind (heq.symm.trans hkind)
    · rw [hnone] at hkind
      cases hkind

theorem borne_read {row : Option UserRow} (hw : MailInv ctx (w, logs)) (hg : g.Borne (w, logs) i)
    {w' : LinkWorld} (hrow : ∀ user ∈ row, w.user = some user) (hclock : w'.clock = w.clock) :
    ({ g with row := row, began := none, handed := none } : MailGrip).Borne
      (w', fun kind => (logs kind).enter i .read) i where
  row user huser kind := by
    have hstamp : stampOf w kind = (user.link kind).sentAt := by
      unfold stampOf
      rw [hrow user huser]
      rfl
    rw [← hstamp]
    exact reader_read (hw.sound kind)
  reading time htime := by
    rw [hclock]
    exact hg.reading time htime
  began _ h := by cases h
  handed _ h := by cases h

theorem borne_clock (hg : g.Borne (w, logs) i) : ({ g with reading := some w.clock } : MailGrip).Borne
    (w, fun kind => (logs kind).enter i (.clock w.clock)) i where
  row row hrow kind := by
    have hentry : (LogEntry.clock w.clock).Private := trivial
    exact reader_private (hg.row row hrow kind) hentry fun h => by cases h
  reading time htime := by
    obtain rfl : w.clock = time := Option.some.inj htime
    exact ⟨Int.le_refl _, fun kind => Function.update_self ..⟩
  began began hbegan := by
    obtain ⟨⟨time, htime, hle⟩, hlog⟩ := hg.began began hbegan
    exact ⟨⟨w.clock, rfl, Int.le_trans hle (hg.reading time htime).1⟩, hlog⟩
  handed kind hhanded := by
    have hentry : (LogEntry.clock w.clock).Private := trivial
    exact holder_private (hg.handed kind hhanded) hentry fun h => by cases h

theorem borne_begun {w' : LinkWorld} (hg : g.Borne (w, logs) i) (hclock : w'.clock = w.clock) :
    ({ g with began := g.reading, handed := none } : MailGrip).Borne (w', fun kind => (logs kind).enter i .begun) i where
  row row hrow kind := by
    have hentry : LogEntry.begun.Private := trivial
    exact reader_private (hg.row row hrow kind) hentry fun h => by cases h
  reading time htime := by
    rw [hclock]
    exact hg.reading time htime
  began began hbegan :=
    ⟨⟨began, hbegan, Int.le_refl _⟩, fun kind => (Function.update_self ..).trans ((hg.reading began hbegan).2 kind)⟩
  handed _ h := by cases h

theorem borne_hand (hw : MailInv ctx (w, logs)) (hg : g.Borne (w, logs) i) (huser : user ∈ g.row)
    (hturn : (logs kind).InTurn i) : ({ g with handed := some kind } : MailGrip).Borne
      (w, fun other => (logs other).enter i (if kind = other then .hand else .idle)) i where
  row row hrow other := by
    dsimp only
    split_ifs
    · exact reader_hand (hw.sound other) (hg.row row hrow other)
    · exact hg.row row hrow other
  reading time htime := by
    refine ⟨(hg.reading time htime).1, fun other => ?_⟩
    dsimp only
    split_ifs <;> exact (hg.reading time htime).2 other
  began began hbegan := by
    refine ⟨(hg.began began hbegan).1, fun other => ?_⟩
    dsimp only
    split_ifs <;> exact (hg.began began hbegan).2 other
  handed other hother := by
    obtain rfl : kind = other := Option.some.inj hother
    dsimp only
    rw [if_pos rfl]
    exact holder_hand (hw.sound kind) (hg.row user huser kind) hturn

theorem borne_commit {written : LinkKind} (hg : g.Borne (w, logs) i)
    (hmay : g.May ctx (.commit written loaded assigned)) {out : Except LinkSig.Err (LinkSig.Ans (.commit written loaded assigned))}
    {hok : ∀ a, out = .ok a → true = true} :
    (g.step ⟨.commit written loaded assigned, out, true, hok⟩).Borne
      (w.commit i written loaded assigned, enterLinks logs i ⟨.commit written loaded assigned, out, true, hok⟩) i := by
  by_cases hstamp : assigned.sentAt = loaded.sentAt
  · refine borne_idle hg rfl (fun kind => ?_) rfl rfl rfl ?_
    · dsimp only [enterLinks, linkEntry]
      rw [if_neg fun h => h.2 hstamp]
      rfl
    · exact .inl (if_pos hstamp)
  · have hholder : (logs written).Holder i := hg.handed written (hmay.resolve_left hstamp).1
    have hentry : ∀ kind, linkEntry kind ⟨.commit written loaded assigned, out, true, hok⟩ =
        if written = kind then .note else .idle := by
      intro kind
      dsimp only [linkEntry]
      simp only [hstamp, ne_eq, not_false_eq_true, and_true]
    refine ⟨fun row hrow kind => ?_, fun time htime => ⟨(hg.reading time htime).1, fun kind => ?_⟩,
      fun began hbegan => ⟨(hg.began began hbegan).1, fun kind => ?_⟩, fun kind hkind => ?_⟩
    · dsimp only [enterLinks]
      rw [hentry]
      split_ifs with hwritten
      · exact reader_note (hg.row row hrow kind) (hwritten ▸ hholder)
      · exact hg.row row hrow kind
    · dsimp only [enterLinks]
      rw [hentry]
      split_ifs <;> exact (hg.reading time htime).2 kind
    · dsimp only [enterLinks]
      rw [hentry]
      split_ifs <;> exact (hg.began began hbegan).2 kind
    · have hnone : (g.step ⟨.commit written loaded assigned, out, true, hok⟩).handed = none := if_neg hstamp
      rw [hnone] at hkind
      cases hkind

theorem borne_apply_mail (hw : MailInv ctx (w, logs)) (hg : g.Borne (w, logs) i) (hmay : g.May ctx ev.op)
    (hall : w.Allowed ctx ev) (hturn : HandsInTurn (w, logs) i ev) :
    (g.step ev).Borne (w.apply ctx i ev, enterLinks logs i ev) i := by
  obtain ⟨op, out, took, hok⟩ := ev
  have hsame : ∀ {w' : LinkWorld}, w'.clock = w.clock → g.Borne (w', logs) i := fun hclock =>
    borne_idle hg hclock (fun _ => rfl) rfl rfl rfl (.inl rfl)
  cases op with
  | now =>
    rcases out with e | time
    · exact hsame rfl
    · obtain rfl : time = w.clock := hall
      exact borne_clock hg
  | existing username email => exact hsame rfl
  | insertUser row => exact hsame clock_apply
  | findByEmail email =>
    rcases out with e | row
    · exact hsame rfl
    · have hrow : row = w.user.filter fun row => ctx.lower row.email = email := hall
      refine borne_read hw hg (fun user huser => ?_) rfl
      rw [hrow] at huser
      exact (Option.filter_eq_some_iff.1 huser).1
  | findByToken kind tokenHash =>
    rcases out with e | row
    · exact hsame rfl
    · have hrow : row = w.user.filter fun row => (row.link kind).tokenHash = some tokenHash := hall
      refine borne_read hw hg (fun user huser => ?_) rfl
      rw [hrow] at huser
      exact (Option.filter_eq_some_iff.1 huser).1
  | tokenUrlsafe =>
    rcases out with e | raw
    · exact hsame rfl
    · exact borne_begun hg rfl
  | hashPassword password => exact hsame rfl
  | commit kind loaded assigned =>
    rcases took with _ | _
    · refine borne_idle hg rfl (fun _ => rfl) rfl rfl rfl ?_
      by_cases hstamp : assigned.sentAt = loaded.sentAt
      · exact .inl (if_pos hstamp)
      · exact .inr (if_neg hstamp)
    · exact borne_commit hg hmay
  | send kind recipient raw =>
    rcases out with e | a
    · exact hsame rfl
    · obtain ⟨user, huser, -⟩ := hmay
      exact borne_hand hw hg huser hturn
  | consume kind tokenHash now newPassword => exact hsame clock_apply

theorem rely_of_allowed (hw : w.user ≠ none) (hg : g.Borne (w, logs) i) (hall : w.Allowed ctx ev) : g.Rely ev := by
  obtain ⟨op, out, took, hok⟩ := ev
  cases op with
  | now =>
    rcases out with e | time
    · trivial
    · obtain rfl : time = w.clock := hall
      exact fun reading hreading => (hg.reading reading hreading).1
  | insertUser row =>
    rcases out with e | a
    · trivial
    · exact hw (hall (hok a rfl))
  | _ => trivial

theorem mail_start {w : MailWorld} : MailGrip.Borne w i {} := by
  refine ⟨?_, ?_, ?_, ?_⟩
  · rintro _ ⟨⟩
  · rintro _ ⟨⟩
  · rintro _ ⟨⟩
  · rintro kind ⟨⟩

/-- **The log of the messages** is kept by every step that hands over in turn. -/
theorem mail_watched (hcooldown : ∀ kind, 0 < ctx.cooldown kind) : (mailSystem ctx).Watched (fun _ => mailMonitor ctx) {}
    (MailInv ctx) (fun w i _ g => g.Borne w i) fun c i _ ev => HandsInTurn c.world i ev where
  start := by
    rintro ⟨w, logs⟩ ⟨w', logs'⟩ i tag p hw ⟨hspawn, hlogs⟩
    obtain rfl : logs' = logs := hlogs
    cases tag with
    | request request =>
      obtain ⟨rfl, rfl⟩ := hspawn
      exact ⟨⟨hw.user, hw.sound⟩, ⟨mail_start, wp_mail hcooldown request⟩, fun j tag' g hji hg =>
        ⟨hg.row, hg.reading, hg.began, hg.handed⟩⟩
    | tick clock =>
      obtain ⟨rfl, hclock, rfl⟩ := hspawn
      exact ⟨⟨hw.user, hw.sound⟩, ⟨mail_start, trivial⟩, fun j tag' g hji hg =>
        ⟨hg.row, fun time htime => ⟨Int.le_trans (hg.reading time htime).1 hclock, (hg.reading time htime).2⟩, hg.began,
          hg.handed⟩⟩
  act := by
    intro c i tag ev g hw hg hmay hall hturn
    exact ⟨mailInv_apply hcooldown hw hg hmay hall hturn, rely_of_allowed hw.user hg hall,
      borne_apply_mail hw hg hmay hall hturn⟩
  other := by
    intro c i tag ev g hw hg hmay hall hturn j tag' g' q hji _ hg'
    exact borne_other_mail hw hg hmay hturn hji hg'

end Keeps

/-! ## Along a run -/

section Runs

abbrev MailConfig (ctx : LinkContext) : Type := (mailSystem ctx).Config

/-- The step hands no message over, or hands it over in turn. -/
def MailStep (c : MailConfig ctx) : (mailSystem ctx).Label → MailConfig ctx → Prop :=
  ActOnly (fun c i _ ev => HandsInTurn c.world i ev) c

/-- Any two messages of a kind were begun a cooldown apart. -/
def MailSpaced (ctx : LinkContext) (w : MailWorld) : Prop := ∀ kind, (w.2 kind).Spaced (ctx.cooldown kind)

/-- The account is there, and no message has been handed over yet. -/
structure MailStart (c : MailConfig ctx) : Prop where
  user : LinkWorld.user (Prod.fst c.world) ≠ none
  logs : c.world.2 = fun _ => {}
  free : ∀ i, c.threads i = none

theorem links_spaced (hcooldown : ∀ kind, 0 < ctx.cooldown kind) {c : MailConfig ctx}
    {tr : List ((mailSystem ctx).Label × MailConfig ctx)} (hstart : MailStart c) (hs : (mailSystem ctx).Steps c tr)
    (hturn : Along MailStep c tr) : Along (fun _ _ c' => MailSpaced ctx c'.world) c tr := by
  have hP := preserved_of_watched (mail_watched hcooldown)
  have hinv : MailInv ctx c.world := by
    refine ⟨hstart.user, fun kind => ?_⟩
    rw [hstart.logs]
    exact ⟨List.Pairwise.nil, Nat.le_refl _, fun _ _ h => by cases h⟩
  have hI := watched_start (M := fun _ => mailMonitor ctx) (V := fun w i _ g => MailGrip.Borne w i g) hstart.free hinv
  exact along_of_preserved hP (fun c l c' hI hst hl kind => ((inv_step hP hI hst hl).1.sound kind).spaced) hI hs hturn

end Runs

end Transform.Accounts
