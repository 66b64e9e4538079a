import Transform.Accounts.LinkSpacing
import Transform.Accounts.PhoneRuns

/-!
# Accounts.PhoneSpacing — the time between two messages of a kind

Phone codes wait for the cooldown as the emails do; their stamp is the time at which the code was issued, written once the
message was sent.

* `wp_sms`: a request hands a code over only when the cooldown since the stamp that it has read was over.
* `messages_spaced`: where every message is handed over by a request whose read showed all messages before it, any two of a
  kind were begun a cooldown apart.
* `burst_sent`: of two requests that are served at once each sends its code.
-/

namespace Transform.Accounts

open Lib Conversions

variable {ctx : PhoneContext} {i j : ℕ}

/-! ## The log of the codes -/

section Log

def phoneEntry : Event PhoneSig → LogEntry
  | ⟨.currentUser, .ok _, _, _⟩ => .read
  | ⟨.now, .ok time, _, _⟩ => .clock time
  | ⟨.generateCode, .ok _, _, _⟩ => .begun
  | ⟨.send _ _, .ok _, _, _⟩ => .hand
  | ⟨.commit loaded assigned, _, true, _⟩ => if assigned.sentAt ≠ loaded.sentAt then .note else .idle
  | _ => .idle

def enterPhone (log : SendLog) (i : ℕ) (ev : Event PhoneSig) : SendLog := log.enter i (phoneEntry ev)

/-- The requests that leave the number in its place. -/
def PhoneRequest.Keeps : PhoneRequest → Prop
  | .delete => False
  | _ => True

/-- The requests on one number, with the log of its codes. -/
def smsSystem (ctx : PhoneContext) : Sys PhoneSig := (phoneSystem ctx PhoneRequest.Keeps).logged SendLog enterPhone

end Log

/-! ## One request -/

section Request

/-- What a request has of the account: the row it has read, its last reading of the clock, the reading at which it began its
message, and whether it has handed it over. -/
structure SmsGrip where
  row : Option UserRow := none
  reading : Option Instant := none
  began : Option Instant := none
  handed : Bool := false

def SmsGrip.Clear (ctx : PhoneContext) (g : SmsGrip) (row : UserRow) : Prop :=
  ∃ began ∈ g.began, ∀ s ∈ row.phone.sentAt, s + ctx.cooldown ≤ began

def SmsGrip.May (ctx : PhoneContext) (g : SmsGrip) : PhoneOp → Prop
  | .send _ _ => ∃ row ∈ g.row, g.Clear ctx row
  | .commit loaded assigned => assigned.sentAt = loaded.sentAt ∨
      g.handed = true ∧ ∃ began ∈ g.began, assigned.sentAt = some began
  | _ => True

/-- The clock does not go back. -/
def SmsGrip.Rely (g : SmsGrip) : Event PhoneSig → Prop
  | ⟨.now, .ok time, _, _⟩ => ∀ reading ∈ g.reading, reading ≤ time
  | _ => True

def SmsGrip.step (g : SmsGrip) : Event PhoneSig → SmsGrip
  | ⟨.currentUser, .ok row, _, _⟩ => { g with row := some row, began := none, handed := false }
  | ⟨.now, .ok time, _, _⟩ => { g with reading := some time }
  | ⟨.generateCode, .ok _, _, _⟩ => { g with began := g.reading, handed := false }
  | ⟨.send _ _, .ok _, _, _⟩ => { g with handed := true }
  | ⟨.commit loaded assigned, _, _, _⟩ => { g with handed := if assigned.sentAt = loaded.sentAt then g.handed else false }
  | _ => g

def smsMonitor (ctx : PhoneContext) : Monitor PhoneSig SmsGrip := ⟨SmsGrip.May ctx, SmsGrip.Rely, SmsGrip.step⟩

variable {g : SmsGrip} {user : UserRow}

theorem wpe_sms {op : PhoneOp} {Q : op.Ans → SmsGrip → Prop} (hmay : g.May ctx op)
    (hQ : ∀ a, g.Rely (.done op (.ok a)) → Q a (g.step (.done op (.ok a)))) :
    wpe (smsMonitor ctx) (onPhone op) Q (fun _ _ => True) g :=
  wpe_ask.2 ⟨hmay, hQ, fun _ _ _ _ => trivial⟩

/-- A code is let through where there is no stamp, or its cooldown is over. -/
theorem le_of_phoneCooldownElapsed {sentAt : Option Instant} {now : Instant} (hcooldown : 0 < ctx.cooldown)
    (h : phoneCooldownElapsed sentAt ctx.cooldown now = true) : ∀ s ∈ sentAt, s + ctx.cooldown ≤ now := by
  rintro s rfl
  have hcooldown' : ¬ ctx.cooldown ≤ 0 := Int.not_le.2 hcooldown
  simpa [phoneCooldownElapsed, cooldownOver, hcooldown'] using h

theorem wpe_sendPhoneCode_sms {phoneNumber : String} (hg : g.row = some user)
    (hover : ∀ s ∈ user.phone.sentAt, ∃ reading ∈ g.reading, s + ctx.cooldown ≤ reading) :
    wpe (smsMonitor ctx) (sendPhoneCode ctx user phoneNumber) (fun _ _ => True) (fun _ _ => True) g := by
  unfold sendPhoneCode issuePhoneCode
  rw [wpe_bind, wpe_bind]
  refine wpe_sms trivial fun reference hreference => ?_
  rw [wpe_bind]
  refine wpe_sms trivial fun code _ => ?_
  rw [wpe_pure]
  dsimp only
  rw [wpe_bind]
  refine wpe_sms (.inl rfl) fun _ _ => ?_
  rw [wpe_bind]
  refine wpe_sms ⟨user, hg, reference, rfl, fun s hs => ?_⟩ fun _ _ => ?_
  · obtain ⟨reading, hreading, hle⟩ := hover s hs
    exact Int.le_trans hle (hreference reading hreading)
  · rw [wpe_bind]
    exact wpe_sms (.inr ⟨rfl, reference, rfl, rfl⟩) fun _ _ => trivial

theorem wpe_sendAndReport_sms {phoneNumber : String} {failure : AccountError → AccountError} (hg : g.row = some user)
    (hover : ∀ s ∈ user.phone.sentAt, ∃ reading ∈ g.reading, s + ctx.cooldown ≤ reading) :
    wpe (smsMonitor ctx) (sendAndReport ctx user phoneNumber failure) (fun _ _ => True) (fun _ _ => True) g := by
  unfold sendAndReport
  rw [wpe_bind, wpe_tryCatch]
  refine wpe_mono (wpe_sendPhoneCode_sms hg hover) (fun sent g _ => ?_) fun _ _ _ => trivial
  rw [wpe_bind]
  exact wpe_sms trivial fun _ _ => trivial

theorem wpe_requestPhoneVerification_sms {raw : String} (hcooldown : 0 < ctx.cooldown) :
    wpe (smsMonitor ctx) (requestPhoneVerification ctx raw) (fun _ _ => True) (fun _ _ => True) g := by
  unfold requestPhoneVerification
  rw [wpe_bind]
  refine wpe_sms trivial fun user _ => ?_
  rw [wpe_bind]
  refine wpe_sms trivial fun now _ => ?_
  rcases normalizePhoneNumber ctx.decimal raw with message | phoneNumber
  · trivial
  · dsimp only
    rw [wpe_bind]
    refine wpe_sms trivial fun conflict _ => ?_
    rcases conflict with _ | verified
    · dsimp only
      split_ifs with helapsed
      · exact wpe_sendAndReport_sms rfl fun s hs => ⟨now, rfl, le_of_phoneCooldownElapsed hcooldown helapsed s hs⟩
      · trivial
    · trivial

theorem wpe_resendPhoneVerification_sms (hcooldown : 0 < ctx.cooldown) :
    wpe (smsMonitor ctx) (resendPhoneVerification ctx) (fun _ _ => True) (fun _ _ => True) g := by
  unfold resendPhoneVerification
  rw [wpe_bind]
  refine wpe_sms trivial fun user _ => ?_
  rw [wpe_bind]
  refine wpe_sms trivial fun now _ => ?_
  rcases user.phone.phoneNumber.filter (· ≠ "") with _ | phoneNumber
  · trivial
  · dsimp only
    split_ifs with hverified helapsed
    · trivial
    · exact wpe_sendAndReport_sms rfl fun s hs => ⟨now, rfl, le_of_phoneCooldownElapsed hcooldown helapsed s hs⟩
    · trivial

theorem wpe_verifyPhone_sms {code : String} :
    wpe (smsMonitor ctx) (verifyPhone ctx code) (fun _ _ => True) (fun _ _ => True) g := by
  have hcodes : ∀ {userId : ℤ} {codeHash : Option String} {g : SmsGrip},
      wpe (smsMonitor ctx) (codeMatches ctx userId code codeHash) (fun _ _ => True) (fun _ _ => True) g := by
    intro userId codeHash g
    unfold codeMatches
    split
    · trivial
    · split_ifs
      · trivial
      · exact wpe_sms trivial fun _ _ => trivial
  unfold verifyPhone
  rw [wpe_bind]
  refine wpe_sms trivial fun user _ => ?_
  rw [wpe_bind]
  refine wpe_sms trivial fun now _ => ?_
  split_ifs
  · trivial
  · trivial
  · rw [wpe_bind]
    refine wpe_mono hcodes (fun matched g _ => ?_) fun _ _ h => h
    split_ifs
    · unfold consumeCode
      rw [wpe_bind]
      refine wpe_sms trivial fun found _ => ?_
      split_ifs <;> trivial
    · rw [wpe_bind]
      exact wpe_sms trivial fun _ _ => trivial

theorem wp_sms (hcooldown : 0 < ctx.cooldown) {request : PhoneRequest} (hkeeps : request.Keeps) :
    wp (smsMonitor ctx) (request.program ctx) (fun _ _ => True) {} := by
  have hthread : ∀ {α : Type} {p : PhoneM α}, wpe (smsMonitor ctx) p (fun _ _ => True) (fun _ _ => True) {} →
      wp (smsMonitor ctx) (thread p) (fun _ _ => True) {} := fun h => wp_thread_of_wpe h
  cases request with
  | request phoneNumber => exact hthread (wpe_requestPhoneVerification_sms hcooldown)
  | resend => exact hthread (wpe_resendPhoneVerification_sms hcooldown)
  | verify code => exact hthread wpe_verifyPhone_sms
  | delete => exact hkeeps.elim

end Request

/-! ## What the number keeps -/

section Keeps

/-- The account and its log. -/
abbrev SmsWorld : Type := PhoneWorld × SendLog

def SmsInv (ctx : PhoneContext) (w : SmsWorld) : Prop := w.2.Sound ctx.cooldown w.1.user.phone.sentAt

/-- What a request's record of the account says of the log. -/
structure SmsGrip.Borne (w : SmsWorld) (i : ℕ) (g : SmsGrip) : Prop where
  row : ∀ row ∈ g.row, w.2.Reader row.phone.sentAt i
  reading : ∀ time ∈ g.reading, time ≤ w.1.clock ∧ w.2.reading i = time
  began : ∀ began ∈ g.began, (∃ time ∈ g.reading, began ≤ time) ∧ w.2.began i = began
  handed : g.handed = true → w.2.Holder i

/-- A code is handed over in turn. -/
def SmsInTurn (w : SmsWorld) (i : ℕ) : Event PhoneSig → Prop
  | ⟨.send _ _, .ok _, _, _⟩ => w.2.InTurn i
  | _ => True

variable {w : PhoneWorld} {log : SendLog} {ev : Event PhoneSig} {g : SmsGrip} {loaded assigned : PhoneColumns}

theorem stamp_phone_commit : (w.commit loaded assigned).user.phone.sentAt =
    if assigned.sentAt = loaded.sentAt then w.user.phone.sentAt else assigned.sentAt := rfl

theorem stamp_phone_apply (hop : ∀ loaded assigned, ev.op ≠ .commit loaded assigned) :
    (w.apply ctx i ev).user.phone.sentAt = w.user.phone.sentAt := by
  unfold PhoneWorld.apply
  split
  · rfl
  · rfl
  · exact absurd rfl (hop _ _)
  · rfl
  · rfl
  · split_ifs <;> rfl
  · rfl

theorem clock_phone_apply : (w.apply ctx i ev).clock = w.clock := by
  unfold PhoneWorld.apply
  split
  case h_6 => split_ifs <;> rfl
  all_goals rfl

theorem due_of_may_sms (hg : g.Borne (w, log) i) (hmay : g.May ctx ev.op) (hturn : SmsInTurn (w, log) i ev) :
    (phoneEntry ev).Due log i := by
  obtain ⟨op, out, took, hok⟩ := ev
  cases op with
  | send phoneNumber code =>
    rcases out with e | a
    · trivial
    · obtain ⟨row, hrow, -⟩ := hmay
      exact ⟨hturn, _, hg.row row hrow⟩
  | commit loaded assigned =>
    rcases took with _ | _
    · trivial
    · dsimp only [phoneEntry]
      split_ifs with hstamp
      · exact hg.handed (hmay.resolve_left hstamp).1
      · trivial
  | currentUser => rcases out with e | a <;> trivial
  | now => rcases out with e | a <;> trivial
  | generateCode => rcases out with e | a <;> trivial
  | _ => trivial

theorem private_of_phone_op (hsend : ∀ phoneNumber code, ev.op ≠ .send phoneNumber code)
    (hcommit : ∀ loaded assigned, ev.op ≠ .commit loaded assigned) : (phoneEntry ev).Private := by
  unfold phoneEntry
  split
  · trivial
  · trivial
  · trivial
  · exact absurd rfl (hsend _ _)
  · exact absurd rfl (hcommit _ _)
  · trivial

theorem smsInv_apply (hcooldown : 0 < ctx.cooldown) (hw : SmsInv ctx (w, log)) (hg : g.Borne (w, log) i)
    (hmay : g.May ctx ev.op) (hturn : SmsInTurn (w, log) i ev) : SmsInv ctx (w.apply ctx i ev, enterPhone log i ev) := by
  show (log.enter i (phoneEntry ev)).Sound _ (w.apply ctx i ev).user.phone.sentAt
  obtain ⟨op, out, took, hok⟩ := ev
  cases op with
  | send phoneNumber code =>
    rcases out with e | a
    · exact hw
    · obtain ⟨row, hrow, began, hbegan, hclear⟩ := hmay
      refine sound_hand hw (hg.row row hrow) hturn fun s hs => ?_
      rw [(hg.began began hbegan).2]
      exact hclear s hs
  | commit loaded assigned =>
    rcases took with _ | _
    · exact hw
    · show (log.enter i _).Sound _ (w.commit loaded assigned).user.phone.sentAt
      rw [stamp_phone_commit]
      dsimp only [phoneEntry]
      by_cases hstamp : assigned.sentAt = loaded.sentAt
      · rw [if_pos hstamp, if_neg (not_not.2 hstamp)]
        exact hw
      · rw [if_neg hstamp, if_pos hstamp]
        obtain ⟨hhanded, began, hbegan, hassigned⟩ := hmay.resolve_left hstamp
        rw [hassigned]
        refine sound_note hw (hg.handed hhanded) (Int.le_of_lt hcooldown) ?_
        exact Int.le_of_eq (hg.began began hbegan).2
  | _ =>
    rw [stamp_phone_apply fun _ _ h => by cases h]
    exact sound_private hw (private_of_phone_op (fun _ _ h => by cases h) fun _ _ h => by cases h)

theorem borne_other_sms {g' : SmsGrip} (hw : SmsInv ctx (w, log)) (hg : g.Borne (w, log) i) (hmay : g.May ctx ev.op)
    (hturn : SmsInTurn (w, log) i ev) (hji : j ≠ i) (hg' : g'.Borne (w, log) j) :
    g'.Borne (w.apply ctx i ev, enterPhone log i ev) j where
  row row hrow := reader_other hw (due_of_may_sms hg hmay hturn) hji (hg'.row row hrow)
  reading time htime := by
    rw [clock_phone_apply]
    exact ⟨(hg'.reading time htime).1, (reading_other hji).trans (hg'.reading time htime).2⟩
  began began hbegan := ⟨(hg'.began began hbegan).1, (began_other hji).trans (hg'.began began hbegan).2⟩
  handed hhanded := holder_other hw (due_of_may_sms hg hmay hturn) hji (hg'.handed hhanded)

theorem borne_commit_sms (hg : g.Borne (w, log) i) (hmay : g.May ctx (.commit loaded assigned)) {took : Bool}
    {out : Except PhoneSig.Err (PhoneSig.Ans (.commit loaded assigned))} {hok : ∀ a, out = .ok a → took = true} :
    (g.step ⟨.commit loaded assigned, out, took, hok⟩).Borne
      (w.apply ctx i ⟨.commit loaded assigned, out, took, hok⟩, enterPhone log i ⟨.commit loaded assigned, out, took, hok⟩) i := by
  have hhanded : (g.step ⟨.commit loaded assigned, out, took, hok⟩).handed =
      if assigned.sentAt = loaded.sentAt then g.handed else false := rfl
  have hentry : phoneEntry ⟨.commit loaded assigned, out, took, hok⟩ = .idle ∨
      assigned.sentAt ≠ loaded.sentAt ∧ phoneEntry ⟨.commit loaded assigned, out, took, hok⟩ = .note := by
    rcases took with _ | _
    · exact .inl rfl
    · by_cases hstamp : assigned.sentAt = loaded.sentAt
      · exact .inl (if_neg (not_not.2 hstamp))
      · exact .inr ⟨hstamp, if_pos hstamp⟩
  rcases hentry with hidle | ⟨hstamp, hnote⟩
  · refine ⟨fun row hrow => ?_, fun time htime => ?_, fun began hbegan => ?_, fun hheld => ?_⟩ <;>
      dsimp only [enterPhone] <;> rw [hidle]
    · exact hg.row row hrow
    · rw [clock_phone_apply]
      exact hg.reading time htime
    · exact hg.began began hbegan
    · rw [hhanded] at hheld
      split_ifs at hheld
      exact hg.handed hheld
  · have hholder := hg.handed (hmay.resolve_left hstamp).1
    refine ⟨fun row hrow => ?_, fun time htime => ?_, fun began hbegan => ?_, fun hheld => ?_⟩ <;>
      dsimp only [enterPhone] <;> rw [hnote]
    · exact reader_note (hg.row row hrow) hholder
    · rw [clock_phone_apply]
      exact hg.reading time htime
    · exact hg.began began hbegan
    · rw [hhanded, if_neg hstamp] at hheld
      cases hheld

theorem borne_apply_sms (hw : SmsInv ctx (w, log)) (hg : g.Borne (w, log) i) (hmay : g.May ctx ev.op)
    (hall : w.Allowed ctx ev) (hturn : SmsInTurn (w, log) i ev) :
    (g.step ev).Borne (w.apply ctx i ev, enterPhone log i ev) i := by
  obtain ⟨op, out, took, hok⟩ := ev
  have hsame : ∀ {w' : PhoneWorld}, w'.clock = w.clock → g.Borne (w', log) i := by
    intro w' hclock
    refine ⟨hg.row, fun time htime => ?_, hg.began, hg.handed⟩
    rw [hclock]
    exact hg.reading time htime
  cases op with
  | currentUser =>
    rcases out with e | row
    · exact hsame rfl
    · obtain rfl : row = w.user := hall
      refine ⟨fun row hrow => ?_, hg.reading, fun _ h => (by cases h), fun h => (by cases h)⟩
      obtain rfl : w.user = row := Option.some.inj hrow
      exact reader_read hw
  | now =>
    rcases out with e | time
    · exact hsame rfl
    · obtain rfl : time = w.clock := hall
      have hentry : (LogEntry.clock w.clock).Private := trivial
      refine ⟨fun row hrow => reader_private (hg.row row hrow) hentry fun h => (by cases h), fun time htime => ?_,
        fun began hbegan => ?_, fun hhanded => holder_private (hg.handed hhanded) hentry fun h => (by cases h)⟩
      · obtain rfl : w.clock = time := Option.some.inj htime
        exact ⟨Int.le_refl _, Function.update_self ..⟩
      · obtain ⟨⟨time, htime, hle⟩, hlog⟩ := hg.began began hbegan
        exact ⟨⟨w.clock, rfl, Int.le_trans hle (hg.reading time htime).1⟩, hlog⟩
  | generateCode =>
    rcases out with e | code
    · exact hsame rfl
    · have hentry : LogEntry.begun.Private := trivial
      refine ⟨fun row hrow => reader_private (hg.row row hrow) hentry fun h => (by cases h), hg.reading,
        fun began hbegan => ⟨⟨began, hbegan, Int.le_refl _⟩, ?_⟩, fun h => (by cases h)⟩
      exact (Function.update_self ..).trans (hg.reading began hbegan).2
  | commit loaded assigned => exact borne_commit_sms hg hmay
  | send phoneNumber code =>
    rcases out with e | a
    · exact hsame rfl
    · obtain ⟨user, huser, -⟩ := hmay
      exact ⟨fun row hrow => reader_hand hw (hg.row row hrow), hg.reading, hg.began, fun _ =>
        holder_hand hw (hg.row user huser) hturn⟩
  | conflict phoneNumber userId => exact hsame rfl
  | compareDigest candidate codeHash => exact hsame clock_phone_apply
  | countGuess => exact hsame clock_phone_apply
  | consume codeHash now => exact hsame clock_phone_apply

theorem rely_of_allowed_sms (hg : g.Borne (w, log) i) (hall : w.Allowed ctx ev) : g.Rely ev := by
  obtain ⟨op, out, took, hok⟩ := ev
  cases op with
  | now =>
    rcases out with e | time
    · trivial
    · obtain rfl : time = w.clock := hall
      exact fun reading hreading => (hg.reading reading hreading).1
  | _ => trivial

theorem sms_start {w : SmsWorld} : SmsGrip.Borne w i {} := by
  refine ⟨?_, ?_, ?_, ?_⟩
  · rintro _ ⟨⟩
  · rintro _ ⟨⟩
  · rintro _ ⟨⟩
  · rintro ⟨⟩

/-- **The log of the codes** is kept by every step that hands over in turn. -/
theorem sms_watched (hcooldown : 0 < ctx.cooldown) : (smsSystem ctx).Watched (fun _ => smsMonitor ctx) {}
    (SmsInv ctx) (fun w i _ g => g.Borne w i) fun c i _ ev => SmsInTurn c.world i ev where
  start := by
    rintro ⟨w, log⟩ ⟨w', log'⟩ i tag p hw ⟨hspawn, hlog⟩
    obtain rfl : log' = log := hlog
    cases tag with
    | request request =>
      obtain ⟨hkeeps, rfl, rfl⟩ := hspawn
      exact ⟨hw, ⟨sms_start, wp_sms hcooldown hkeeps⟩, fun j tag' g hji hg => hg⟩
    | tick clock =>
      obtain ⟨rfl, hclock, rfl⟩ := hspawn
      exact ⟨hw, ⟨sms_start, trivial⟩, fun j tag' g hji hg =>
        ⟨hg.row, fun time htime => ⟨Int.le_trans (hg.reading time htime).1 hclock, (hg.reading time htime).2⟩, hg.began,
          hg.handed⟩⟩
  act := by
    intro c i tag ev g hw hg hmay hall hturn
    exact ⟨smsInv_apply hcooldown hw hg hmay hturn, rely_of_allowed_sms hg hall, borne_apply_sms hw hg hmay hall hturn⟩
  other := by
    intro c i tag ev g hw hg hmay hall hturn j tag' g' q hji _ hg'
    exact borne_other_sms hw hg hmay hturn hji hg'

end Keeps

/-! ## Along a run -/

section Runs

abbrev SmsConfig (ctx : PhoneContext) : Type := (smsSystem ctx).Config

/-- The step hands no code over, or hands it over in turn. -/
def SmsStep (c : SmsConfig ctx) : (smsSystem ctx).Label → SmsConfig ctx → Prop :=
  ActOnly (fun c i _ ev => SmsInTurn c.world i ev) c

/-- Any two codes were begun a cooldown apart. -/
def SmsSpaced (ctx : PhoneContext) (w : SmsWorld) : Prop := w.2.Spaced ctx.cooldown

/-- No code has been handed over yet. -/
structure SmsStart (c : SmsConfig ctx) : Prop where
  log : c.world.2 = {}
  free : ∀ i, c.threads i = none

theorem codes_spaced (hcooldown : 0 < ctx.cooldown) {c : SmsConfig ctx}
    {tr : List ((smsSystem ctx).Label × SmsConfig ctx)} (hstart : SmsStart c) (hs : (smsSystem ctx).Steps c tr)
    (hturn : Along SmsStep c tr) : Along (fun _ _ c' => SmsSpaced ctx c'.world) c tr := by
  have hP := preserved_of_watched (sms_watched hcooldown)
  have hinv : SmsInv ctx c.world := by
    unfold SmsInv
    rw [hstart.log]
    exact ⟨List.Pairwise.nil, Nat.le_refl _, fun _ _ h => by cases h⟩
  have hI := watched_start (M := fun _ => smsMonitor ctx) (V := fun w i _ g => SmsGrip.Borne w i g) hstart.free hinv
  exact along_of_preserved hP (fun c l c' hI hst hl => (inv_step hP hI hst hl).1.spaced) hI hs hturn

/-- **The messages are spaced** in every run in which each is handed over by a request whose read of the account showed every
message of the kind that was handed over before it. -/
theorem messages_spaced {links : LinkContext} {phone : PhoneContext} (hlinks : ∀ kind, 0 < links.cooldown kind)
    (hphone : 0 < phone.cooldown) :
    (∀ (c : MailConfig links) (tr : List ((mailSystem links).Label × MailConfig links)), MailStart c →
      (mailSystem links).Steps c tr → Along MailStep c tr → Along (fun _ _ c' => MailSpaced links c'.world) c tr) ∧
    (∀ (c : SmsConfig phone) (tr : List ((smsSystem phone).Label × SmsConfig phone)), SmsStart c →
      (smsSystem phone).Steps c tr → Along SmsStep c tr → Along (fun _ _ c' => SmsSpaced phone c'.world) c tr) :=
  ⟨fun _ _ hstart hs hturn => links_spaced hlinks hstart hs hturn,
    fun _ _ hstart hs hturn => codes_spaced hphone hstart hs hturn⟩

end Runs

/-! ## Concrete runs -/

section Concrete

def mailDriver : (mailSystem oneDay).Driver := rowDriver.logged LinkLogs enterLinks

def mails (request : LinkRequest) (i : ℕ) : (mailSystem oneDay).Starter i := (asks request i).logged LinkLogs enterLinks

def mailWaits (microseconds : ℕ) (i : ℕ) : (mailSystem oneDay).Starter i := (passes microseconds i).logged LinkLogs enterLinks

def mailGoes (i : ℕ) : ℕ → List (mailSystem oneDay).Move
  | 0 => []
  | n + 1 => .go i :: mailGoes i n

def smsDriver : (smsSystem fiveGuesses).Driver := (phoneDriver PhoneRequest.Keeps).logged SendLog enterPhone

def texts {request : PhoneRequest} (hkeeps : request.Keeps) (i : ℕ) : (smsSystem fiveGuesses).Starter i :=
  (sends hkeeps i).logged SendLog enterPhone

def smsWaits (microseconds : ℕ) (i : ℕ) : (smsSystem fiveGuesses).Starter i := (waits microseconds i).logged SendLog enterPhone

def smsGoes (i : ℕ) : ℕ → List (smsSystem fiveGuesses).Move
  | 0 => []
  | n + 1 => .go i :: smsGoes i n

def mailStart : MailConfig oneDay :=
  ⟨({ user := some { id := 7, username := "ada", email := "ada@example.com", hashedPassword := "argon2" } }, fun _ => {}),
    fun _ => none⟩

theorem mailStart_start : MailStart mailStart := ⟨Option.some_ne_none _, rfl, fun _ => rfl⟩

def smsStart : SmsConfig fiveGuesses := ⟨(account {}, {}), fun _ => none⟩

theorem smsStart_start : SmsStart smsStart := ⟨rfl, fun _ => rfl⟩

/-- A reset is asked for twice, a minute apart. -/
def twoResets : List ((mailSystem oneDay).Label × MailConfig oneDay) :=
  Sys.drive mailDriver mailStart
    (.start 0 (mails (.forgot "ada@example.com") 0) :: mailGoes 0 7 ++ .start 1 (mailWaits 60000000 1) ::
      .start 2 (mails (.forgot "ada@example.com") 2) :: mailGoes 2 8)

/-- A code is asked for and sent again a minute later. -/
def twoCodes : List ((smsSystem fiveGuesses).Label × SmsConfig fiveGuesses) :=
  Sys.drive smsDriver smsStart
    (.start 0 (@texts (.request "+1 (415) 555-2671") trivial 0) :: smsGoes 0 9 ++ .start 1 (smsWaits 60000000 1) ::
      .start 2 (@texts .resend trivial 2) :: smsGoes 2 8)

instance decidableHandsInTurn (w : MailWorld) (i : ℕ) : ∀ ev : Event LinkSig, Decidable (HandsInTurn w i ev)
  | ⟨.send kind _ _, .ok _, _, _⟩ => inferInstanceAs (Decidable ((w.2 kind).InTurn i))
  | ⟨.send _ _ _, .error _, _, _⟩ | ⟨.now, _, _, _⟩ | ⟨.existing _ _, _, _, _⟩ | ⟨.insertUser _, _, _, _⟩
  | ⟨.findByEmail _, _, _, _⟩ | ⟨.findByToken _ _, _, _, _⟩ | ⟨.tokenUrlsafe, _, _, _⟩ | ⟨.hashPassword _, _, _, _⟩
  | ⟨.commit _ _ _, _, _, _⟩ | ⟨.consume _ _ _ _, _, _, _⟩ => isTrue trivial

instance decidableSmsInTurn (w : SmsWorld) (i : ℕ) : ∀ ev : Event PhoneSig, Decidable (SmsInTurn w i ev)
  | ⟨.send _ _, .ok _, _, _⟩ => inferInstanceAs (Decidable (w.2.InTurn i))
  | ⟨.send _ _, .error _, _, _⟩ | ⟨.currentUser, _, _, _⟩ | ⟨.now, _, _, _⟩ | ⟨.conflict _ _, _, _, _⟩
  | ⟨.generateCode, _, _, _⟩ | ⟨.commit _ _, _, _, _⟩ | ⟨.compareDigest _ _, _, _, _⟩ | ⟨.countGuess, _, _, _⟩
  | ⟨.consume _ _, _, _, _⟩ => isTrue trivial

instance decidableMailStep (c : MailConfig oneDay) :
    ∀ (l : (mailSystem oneDay).Label) (c' : MailConfig oneDay), Decidable (MailStep c l c')
  | .act i _ ev, _ => decidableHandsInTurn c.world i ev
  | .start _ _, _ | .exit _, _ => isTrue trivial

instance decidableSmsStep (c : SmsConfig fiveGuesses) :
    ∀ (l : (smsSystem fiveGuesses).Label) (c' : SmsConfig fiveGuesses), Decidable (SmsStep c l c')
  | .act i _ ev, _ => decidableSmsInTurn c.world i ev
  | .start _ _, _ | .exit _, _ => isTrue trivial

/-- The times at which the resets of the last state were begun. -/
def resetsOf (tr : List ((mailSystem oneDay).Label × MailConfig oneDay)) : List ℤ :=
  SendLog.handed ((lastConfig mailStart tr).world.2 .reset)

def codesOf (tr : List ((smsSystem fiveGuesses).Label × SmsConfig fiveGuesses)) : List ℤ :=
  SendLog.handed (Prod.snd (lastConfig smsStart tr).world)

theorem messages_spaced_minutes : resetsOf twoResets = [60000000, 0] ∧ codesOf twoCodes = [60000000, 0] ∧
    Along (fun _ _ c' => MailSpaced oneDay c'.world) mailStart twoResets ∧
      Along (fun _ _ c' => SmsSpaced fiveGuesses c'.world) smsStart twoCodes := by
  obtain ⟨hmails, hcodes⟩ := @messages_spaced oneDay fiveGuesses (fun _ => of_decide_eq_true rfl) (by decide)
  have hmailTurn : Along MailStep mailStart twoResets :=
    @of_decide_eq_true _ (@decidableAlong _ _ _ decidableMailStep _ _) (by decide +kernel)
  have hsmsTurn : Along SmsStep smsStart twoCodes :=
    @of_decide_eq_true _ (@decidableAlong _ _ _ decidableSmsStep _ _) (by decide +kernel)
  exact ⟨by decide +kernel, by decide +kernel, hmails _ _ mailStart_start (steps_drive _ _ _) hmailTurn,
    hcodes _ _ smsStart_start (steps_drive _ _ _) hsmsTurn⟩

/-- Two requests read the account before either has sent its code. -/
def burst : List ((smsSystem fiveGuesses).Label × SmsConfig fiveGuesses) :=
  Sys.drive smsDriver smsStart
    (.start 0 (@texts (.request "+1 (415) 555-2671") trivial 0) :: smsGoes 0 3 ++
      .start 1 (@texts (.request "+1 (415) 555-2671") trivial 1) :: smsGoes 1 9 ++ smsGoes 0 6)

/-- **A burst of requests**: each sends its code, and nothing lies between them. -/
theorem burst_sent : ¬ ((∀ (c : MailConfig oneDay) (tr : List ((mailSystem oneDay).Label × MailConfig oneDay)),
      MailStart c → (mailSystem oneDay).Steps c tr → Along (fun _ _ c' => MailSpaced oneDay c'.world) c tr) ∧
    ∀ (c : SmsConfig fiveGuesses) (tr : List ((smsSystem fiveGuesses).Label × SmsConfig fiveGuesses)),
      SmsStart c → (smsSystem fiveGuesses).Steps c tr → Along (fun _ _ c' => SmsSpaced fiveGuesses c'.world) c tr) := by
  rintro ⟨-, h⟩
  have hall := h smsStart burst smsStart_start (steps_drive _ _ _)
  have hlast : SmsSpaced fiveGuesses (lastConfig smsStart burst).world := last_of_along List.Pairwise.nil hall
  have hcodes : codesOf burst = [0, 0] := by decide +kernel
  unfold codesOf at hcodes
  unfold SmsSpaced SendLog.Spaced at hlast
  rw [hcodes] at hlast
  exact absurd hlast (by decide)

end Concrete

end Transform.Accounts
