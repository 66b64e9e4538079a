import Mathlib.Data.List.Nodup
import Transform.Accounts.Links

/-!
# Accounts.LinkRuns — what the requests on one account make of its links

* `wp_request`: a request stores only a token that it has drawn, and clears only a link that it has read as expired, or as
  one of a verified address.
* `links_in_time`: where no request clears a link that has been issued since its read, a link takes effect once, before it
  expires and while it is the latest, and the latest can be taken until then.
* `resend_undone`: an expired link that is opened while a new one is sent takes the new one away.
-/

namespace Transform.Accounts

open Lib Conversions

variable {ctx : LinkContext} {w : LinkWorld} {i j : ℕ} {kind : LinkKind}

/-! ## One request -/

section Request

/-- What a request has of the account: the row it issues for, the time it has read last, a token that it has drawn and not
stored, and the row it has read by a token. -/
structure LinkGrip where
  user : Option UserRow := none
  now : Option Instant := none
  raw : Option String := none
  read : Option (LinkKind × String × UserRow) := none

/-- A commit stores a token that was drawn. -/
def LinkGrip.Stores (ctx : LinkContext) (g : LinkGrip) (kind : LinkKind) (loaded assigned : LinkColumns) : Prop :=
  ∃ row ∈ g.user, ∃ raw ∈ g.raw, loaded = row.link kind ∧ assigned.tokenHash = some (ctx.hashToken raw)

def LinkGrip.Clears (g : LinkGrip) (kind : LinkKind) (loaded assigned : LinkColumns) : Prop :=
  ∃ now ∈ g.now, ∃ tokenHash row, g.read = some (kind, tokenHash, row) ∧ loaded = row.link kind ∧
    assigned = { row.link kind with tokenHash := none, expiresAt := none } ∧
    (kind = .verification ∧ row.emailVerified = true ∨ isExpired (row.link kind).expiresAt now = true)

/-- What a request may ask. -/
def LinkGrip.May (ctx : LinkContext) (g : LinkGrip) : LinkOp → Prop
  | .insertUser row => row.verification = {} ∧ row.reset = {}
  | .tokenUrlsafe => g.user ≠ none
  | .commit kind loaded assigned => g.Stores ctx kind loaded assigned ∨ g.Clears kind loaded assigned ∨
      assigned.tokenHash = loaded.tokenHash ∧ assigned.expiresAt = loaded.expiresAt
  | _ => True

def LinkGrip.step (g : LinkGrip) : Event LinkSig → LinkGrip
  | ⟨.now, .ok now, _, _⟩ => { g with now := some now }
  | ⟨.insertUser row, .ok _, _, _⟩ => { g with user := some row }
  | ⟨.findByEmail _, .ok row, _, _⟩ => { g with user := row }
  | ⟨.findByToken kind tokenHash, .ok row, _, _⟩ => { g with read := row.map fun row => (kind, tokenHash, row) }
  | ⟨.tokenUrlsafe, .ok raw, _, _⟩ => { g with raw := some raw }
  | ⟨.commit _ _ _, _, _, _⟩ => { g with raw := none }
  | _ => g

def linkMonitor (ctx : LinkContext) : Monitor LinkSig LinkGrip := ⟨LinkGrip.May ctx, fun _ _ => True, LinkGrip.step⟩

variable {g : LinkGrip} {user : UserRow}

theorem wpe_onLinks {op : LinkOp} {Q : op.Ans → LinkGrip → Prop} (hmay : g.May ctx op)
    (hQ : ∀ a, Q a (g.step (.done op (.ok a)))) : wpe (linkMonitor ctx) (onLinks op) Q (fun _ _ => True) g :=
  wpe_ask.2 ⟨hmay, fun a _ => hQ a, fun _ _ _ _ => trivial⟩

theorem wpe_cooldownElapsed {sentAt : Option Instant} {cooldown : Instant} :
    wpe (linkMonitor ctx) (cooldownElapsed sentAt cooldown) (fun _ g' => g'.user = g.user) (fun _ _ => True) g := by
  unfold cooldownElapsed
  split
  · rfl
  · split_ifs
    · rfl
    · rw [wpe_bind]
      exact wpe_onLinks trivial fun _ => rfl

theorem wpe_maySend {respectCooldown : Bool} {sentAt : Option Instant} {cooldown : Instant} :
    wpe (linkMonitor ctx) (maySend respectCooldown sentAt cooldown) (fun _ g' => g'.user = g.user) (fun _ _ => True) g := by
  unfold maySend
  split_ifs
  · exact wpe_cooldownElapsed
  · rfl

def Drawn (ctx : LinkContext) (user : UserRow) (token : IssuedToken) (g : LinkGrip) : Prop :=
  g.user = some user ∧ g.raw = some token.raw ∧ token.hashed = ctx.hashToken token.raw

theorem wpe_issueToken {ttl : Instant} (hg : g.user = some user) :
    wpe (linkMonitor ctx) (issueToken ctx ttl) (Drawn ctx user) (fun _ _ => True) g := by
  unfold issueToken
  rw [wpe_bind]
  refine wpe_onLinks trivial fun now => ?_
  rw [wpe_bind]
  refine wpe_onLinks ?_ fun raw => ⟨hg, rfl, rfl⟩
  show g.user ≠ none
  rw [hg]
  exact Option.some_ne_none _

theorem wpe_issueAndSend {issue : LinkM IssuedToken} {respectCooldown : Bool} (hg : g.user = some user)
    (hissue : ∀ g : LinkGrip, g.user = some user →
      wpe (linkMonitor ctx) issue (Drawn ctx user) (fun _ _ => True) g) :
    wpe (linkMonitor ctx) (issueAndSend ctx kind issue user respectCooldown) (fun _ _ => True) (fun _ _ => True) g := by
  unfold issueAndSend
  rw [wpe_bind]
  refine wpe_mono wpe_maySend ?_ fun _ _ h => h
  intro allowed g' hsame
  replace hg : g'.user = some user := hsame.trans hg
  clear hsame
  split_ifs
  · trivial
  rw [wpe_bind]
  refine wpe_mono (hissue g' hg) ?_ fun _ _ h => h
  rintro token g ⟨hg, hraw, hhash⟩
  dsimp only
  rw [wpe_bind]
  refine wpe_onLinks (.inl ⟨user, hg, token.raw, hraw, rfl, congrArg some hhash⟩) fun _ => ?_
  rw [wpe_bind, wpe_tryCatch, wpe_bind]
  refine wpe_ask.2 ⟨trivial, fun _ _ => ?_, fun _ _ _ _ => trivial⟩
  rw [wpe_pure, if_neg (by decide), wpe_bind]
  refine wpe_onLinks trivial fun now => ?_
  rw [wpe_bind]
  exact wpe_onLinks (.inr (.inr ⟨rfl, rfl⟩)) fun _ => trivial

theorem wpe_issueAndSendVerificationEmail {respectCooldown : Bool} (hg : g.user = some user) :
    wpe (linkMonitor ctx) (issueAndSendVerificationEmail ctx user respectCooldown) (fun _ _ => True) (fun _ _ => True) g :=
  wpe_issueAndSend hg fun _ hg => wpe_issueToken hg

theorem wpe_issueAndSendPasswordResetEmail {respectCooldown : Bool} (hg : g.user = some user) :
    wpe (linkMonitor ctx) (issueAndSendPasswordResetEmail ctx user respectCooldown) (fun _ _ => True) (fun _ _ => True)
      g := by
  refine wpe_issueAndSend hg fun g hg => ?_
  unfold issuePasswordResetToken
  split_ifs
  · trivial
  · exact wpe_issueToken hg

theorem wpe_registerUser {userId : ℤ} {username email password : String} :
    wpe (linkMonitor ctx) (registerUser ctx userId username email password) (fun _ _ => True) (fun _ _ => True) g := by
  unfold registerUser
  rw [wpe_bind]
  refine wpe_onLinks trivial fun taken => ?_
  split_ifs
  · trivial
  rw [wpe_bind]
  refine wpe_onLinks trivial fun hashedPassword => ?_
  dsimp only
  rw [wpe_bind, wpe_tryCatch]
  refine wpe_ask.2 ⟨⟨rfl, rfl⟩, fun _ _ => ?_, fun _ _ _ _ => trivial⟩
  rw [wpe_bind]
  exact wpe_mono (wpe_issueAndSendVerificationEmail rfl) (fun _ _ _ => trivial) fun _ _ h => h

theorem wpe_resendVerificationEmail {email : String} :
    wpe (linkMonitor ctx) (resendVerificationEmail ctx email) (fun _ _ => True) (fun _ _ => True) g := by
  unfold resendVerificationEmail
  rw [wpe_bind]
  refine wpe_onLinks trivial fun user? => ?_
  rcases user? with _ | user
  · trivial
  · dsimp only
    split_ifs
    · rw [wpe_bind]
      exact wpe_mono (wpe_issueAndSendVerificationEmail rfl) (fun _ _ _ => trivial) fun _ _ h => h
    · trivial

theorem wpe_forgotPassword {email : String} :
    wpe (linkMonitor ctx) (forgotPassword ctx email) (fun _ _ => True) (fun _ _ => True) g := by
  unfold forgotPassword
  rw [wpe_bind]
  refine wpe_onLinks trivial fun user? => ?_
  rcases user? with _ | user
  · trivial
  · dsimp only
    split_ifs
    · rw [wpe_bind]
      exact wpe_mono (wpe_issueAndSendPasswordResetEmail rfl) (fun _ _ _ => trivial) fun _ _ h => h
    · trivial

theorem wpe_verifyEmail {token : String} :
    wpe (linkMonitor ctx) (verifyEmail ctx token) (fun _ _ => True) (fun _ _ => True) g := by
  unfold verifyEmail
  dsimp only
  rw [wpe_bind]
  refine wpe_onLinks trivial fun now => ?_
  rw [wpe_bind]
  refine wpe_onLinks trivial fun user? => ?_
  rcases user? with _ | user
  · trivial
  dsimp only
  unfold clearLink
  split_ifs with hverified hexpired
  · rw [wpe_bind]
    exact wpe_onLinks (.inr (.inl ⟨now, rfl, _, user, rfl, rfl, rfl, .inl ⟨rfl, hverified⟩⟩)) fun _ => trivial
  · rw [wpe_bind]
    exact wpe_onLinks (.inr (.inl ⟨now, rfl, _, user, rfl, rfl, rfl, .inr hexpired⟩)) fun _ => trivial
  · rw [wpe_bind]
    refine wpe_onLinks trivial fun taken => ?_
    split_ifs
    · trivial
    · trivial

theorem wpe_resetPassword {token newPassword : String} :
    wpe (linkMonitor ctx) (resetPassword ctx token newPassword) (fun _ _ => True) (fun _ _ => True) g := by
  unfold resetPassword
  dsimp only
  rw [wpe_bind]
  refine wpe_onLinks trivial fun now => ?_
  rw [wpe_bind]
  refine wpe_onLinks trivial fun user? => ?_
  rcases user? with _ | user
  · trivial
  dsimp only
  unfold clearLink
  split_ifs with hexpired
  · rw [wpe_bind]
    exact wpe_onLinks (.inr (.inl ⟨now, rfl, _, user, rfl, rfl, rfl, .inr hexpired⟩)) fun _ => trivial
  · rw [wpe_bind]
    refine wpe_onLinks trivial fun newPasswordHash => ?_
    rw [wpe_bind]
    refine wpe_onLinks trivial fun taken => ?_
    split_ifs
    · trivial
    · trivial

/-- **A request** stores only tokens it has drawn, and clears only a link that it has read as one to be cleared. -/
theorem wp_request (request : LinkRequest) : wp (linkMonitor ctx) (request.program ctx) (fun _ _ => True) {} := by
  cases request with
  | register userId username email password => exact wp_thread_of_wpe (R := fun _ => True) wpe_registerUser
  | resend email => exact wp_thread_of_wpe (R := fun _ => True) wpe_resendVerificationEmail
  | forgot email => exact wp_thread_of_wpe (R := fun _ => True) wpe_forgotPassword
  | verify token => exact wp_thread_of_wpe (R := fun _ => True) wpe_verifyEmail
  | resetPassword token newPassword => exact wp_thread_of_wpe (R := fun _ => True) wpe_resetPassword

end Request

/-! ## What the account keeps -/

section Keeps

def LinkWorld.hashes (w : LinkWorld) : List String := w.issued.map (·.tokenHash)

/-- The hash that the row holds is the one of the link issued last, which has not been used. -/
def Holds (w : LinkWorld) (row : UserRow) (kind : LinkKind) : Prop :=
  ∀ tokenHash ∈ (row.link kind).tokenHash, w.latest kind = some ⟨kind, tokenHash, (row.link kind).expiresAt⟩ ∧
    (kind, tokenHash) ∉ w.effects ∧ (kind, tokenHash) ∉ w.spent

/-- The link issued last is in the row until it is used or expires. -/
def Live (w : LinkWorld) (kind : LinkKind) : Prop :=
  ∀ link ∈ w.latest kind, (kind, link.tokenHash) ∉ w.effects → (kind, link.tokenHash) ∉ w.spent →
    (∃ expires ∈ link.expiresAt, w.clock < expires) → ∃ row ∈ w.user, (row.link kind).tokenHash = some link.tokenHash

structure LinkInv (w : LinkWorld) : Prop where
  distinct : w.hashes.Nodup
  drawn : (w.minted.map (·.1)).Nodup
  stored : w.hashes ⊆ w.minted.map (·.1)
  absent : w.user = none → w.issued = []
  once : w.effects.Nodup
  effects : ∀ p ∈ w.effects, p.2 ∈ w.hashes
  spent : ∀ p ∈ w.spent, p.2 ∈ w.hashes
  holds : ∀ row ∈ w.user, ∀ kind, Holds w row kind
  live : ∀ kind, Live w kind

/-- What the world bears out of a request's grip. -/
structure LinkGrip.Borne (ctx : LinkContext) (w : LinkWorld) (i : ℕ) (g : LinkGrip) : Prop where
  user : ∀ row ∈ g.user, w.user ≠ none ∧ ∀ kind, ∀ tokenHash ∈ (row.link kind).tokenHash, tokenHash ∈ w.hashes
  now : ∀ now ∈ g.now, now ≤ w.clock
  raw : ∀ raw ∈ g.raw, (ctx.hashToken raw, i) ∈ w.minted ∧ ctx.hashToken raw ∉ w.hashes
  read : ∀ p ∈ g.read, w.seen i = some p.2.2 ∧ (p.2.2.link p.1).tokenHash = some p.2.1 ∧
    ⟨p.1, p.2.1, (p.2.2.link p.1).expiresAt⟩ ∈ w.issued

/-- A commit clears no link issued since the read, and the expiry that it stores is the one assigned; a link that is taken
has not expired since the clock was read. -/
def InTime (w : LinkWorld) : Event LinkSig → Prop
  | ⟨.commit kind loaded assigned, _, true, _⟩ => assigned.tokenHash ≠ loaded.tokenHash → ∀ row ∈ w.user,
      (assigned.tokenHash = none → (row.link kind).tokenHash = none ∨ (row.link kind).tokenHash = loaded.tokenHash) ∧
      (assigned.tokenHash ≠ none →
        flushed loaded.expiresAt assigned.expiresAt (row.link kind).expiresAt = assigned.expiresAt)
  | ⟨.consume kind tokenHash now _, _, true, _⟩ => ∀ row ∈ w.takes kind tokenHash now,
      ∃ expires ∈ (row.link kind).expiresAt, w.clock < expires
  | _ => True

variable {w' : LinkWorld} {g : LinkGrip} {ev : Event LinkSig} {row : UserRow}

@[simp] theorem link_setLink {columns : LinkColumns} : (row.setLink columns kind).link kind = columns := by
  cases kind <;> rfl

theorem link_setLink_of_ne {columns : LinkColumns} {other : LinkKind} (h : other ≠ kind) :
    (row.setLink columns kind).link other = row.link other := by
  cases kind <;> cases other <;> first | rfl | exact absurd rfl h

theorem link_consumed {now : Instant} {newPassword : Option String} :
    (row.consumed now newPassword kind).link kind = { row.link kind with tokenHash := none, expiresAt := none } := by
  cases kind <;> rfl

theorem link_consumed_of_ne {now : Instant} {newPassword : Option String} {other : LinkKind} (h : other ≠ kind) :
    (row.consumed now newPassword kind).link other = row.link other := by
  cases kind <;> cases other <;> first | rfl | exact absurd rfl h

theorem latest_mem {link : IssuedLink} (h : link ∈ w.latest kind) : link ∈ w.issued ∧ link.kind = kind :=
  ⟨List.mem_of_find?_eq_some h, by simpa using List.find?_some h⟩

theorem hash_mem {link : IssuedLink} (h : link ∈ w.issued) : link.tokenHash ∈ w.hashes := List.mem_map_of_mem h

theorem link_of_hash (hw : w.hashes.Nodup) {link other : IssuedLink} (h : link ∈ w.issued) (h' : other ∈ w.issued)
    (heq : link.tokenHash = other.tokenHash) : link = other :=
  List.inj_on_of_nodup_map hw h h' heq

theorem hash_of_holds (hw : LinkInv w) (hrow : row ∈ w.user) {tokenHash : String}
    (h : (row.link kind).tokenHash = some tokenHash) : ⟨kind, tokenHash, (row.link kind).expiresAt⟩ ∈ w.issued :=
  (latest_mem (hw.holds row hrow kind tokenHash h).1).1

theorem borne_of_grows (huser : w.user ≠ none → w'.user ≠ none) (hclock : w.clock ≤ w'.clock)
    (hminted : w.minted ⊆ w'.minted) (hissued : w.issued ⊆ w'.issued) (hseen : w'.seen j = w.seen j)
    (hraw : ∀ raw ∈ g.raw, ctx.hashToken raw ∉ w'.hashes)
    (h : g.Borne ctx w j) : g.Borne ctx w' j where
  user row hrow := by
    obtain ⟨hsome, hhashes⟩ := h.user row hrow
    exact ⟨huser hsome, fun kind tokenHash hmem => List.map_subset _ hissued (hhashes kind tokenHash hmem)⟩
  now now hnow := Int.le_trans (h.now now hnow) hclock
  raw raw hmem := ⟨hminted (h.raw raw hmem).1, hraw raw hmem⟩
  read p hp := by
    obtain ⟨hseen', hhash, hmem⟩ := h.read p hp
    exact ⟨hseen.trans hseen', hhash, hissued hmem⟩

/-- What leaves the links, the row and what was done with them leaves the invariant. -/
theorem linkInv_of_same (huser : w'.user = w.user) (hclock : w.clock ≤ w'.clock) (hminted : w'.minted = w.minted)
    (hissued : w'.issued = w.issued) (heffects : w'.effects = w.effects) (hspent : w'.spent = w.spent) (hw : LinkInv w) :
    LinkInv w' := by
  obtain ⟨user, clock, minted, issued, effects, spent, seen⟩ := w'
  obtain rfl : user = w.user := huser
  obtain rfl : minted = w.minted := hminted
  obtain rfl : issued = w.issued := hissued
  obtain rfl : effects = w.effects := heffects
  obtain rfl : spent = w.spent := hspent
  refine ⟨hw.distinct, hw.drawn, hw.stored, hw.absent, hw.once, hw.effects, hw.spent, hw.holds, ?_⟩
  rintro kind link hlink heffect hspent ⟨expires, hexpires, hlater⟩
  exact hw.live kind link hlink heffect hspent ⟨expires, hexpires, Int.lt_of_le_of_lt hclock hlater⟩

theorem linkInv_mint {raw : String} (hw : LinkInv w) (hnew : ctx.hashToken raw ∉ w.minted.map (·.1)) :
    LinkInv { w with minted := (ctx.hashToken raw, i) :: w.minted } where
  distinct := hw.distinct
  drawn := List.nodup_cons.2 ⟨hnew, hw.drawn⟩
  stored := List.Subset.trans hw.stored (List.subset_cons_self _ _)
  absent := hw.absent
  once := hw.once
  effects := hw.effects
  spent := hw.spent
  holds := hw.holds
  live := hw.live

theorem linkInv_insertUser (hw : LinkInv w) (hnone : w.user = none) (hcolumns : row.verification = {} ∧ row.reset = {}) :
    LinkInv { w with user := some row } where
  distinct := hw.distinct
  drawn := hw.drawn
  stored := hw.stored
  absent h := by cases h
  once := hw.once
  effects := hw.effects
  spent := hw.spent
  holds := by
    rintro _ ⟨⟩ kind tokenHash h
    have hempty : row.link kind = {} := by
      cases kind
      · exact hcolumns.1
      · exact hcolumns.2
    rw [hempty] at h
    cases h
  live := by
    intro kind link hlink
    have hmem := (latest_mem hlink).1
    have hempty : w.issued = [] := hw.absent hnone
    have hcons : link ∈ w.issued := hmem
    rw [hempty] at hcons
    cases hcons

/-! ### The commit of a row -/

section Commit

variable {loaded assigned : LinkColumns} {other : LinkKind}

theorem latest_commit_of_ne (h : other ≠ kind) : (w.commit i kind loaded assigned).latest other = w.latest other := by
  unfold LinkWorld.latest LinkWorld.commit
  dsimp only
  split_ifs
  · rfl
  · rcases assigned.tokenHash with _ | tokenHash
    · rfl
    · exact List.find?_cons_of_neg (by simpa using Ne.symm h)

theorem mem_spent_commit_of_ne (h : other ≠ kind) {tokenHash : String} :
    (other, tokenHash) ∈ (w.commit i kind loaded assigned).spent ↔ (other, tokenHash) ∈ w.spent := by
  unfold LinkWorld.commit
  dsimp only
  split_ifs
  · rcases loaded.tokenHash with _ | spentHash
    · exact Iff.rfl
    · simp [h]
  · exact Iff.rfl

theorem user_commit (hrow : row ∈ (w.commit i kind loaded assigned).user) :
    ∃ old ∈ w.user, row = old.setLink (loaded.flush assigned (old.link kind)) kind := by
  obtain ⟨old, hold, rfl⟩ := Option.map_eq_some_iff.1 hrow
  exact ⟨old, hold, rfl⟩

theorem holds_commit_of_ne (hw : LinkInv w) (h : other ≠ kind) (hrow : row ∈ (w.commit i kind loaded assigned).user) :
    Holds (w.commit i kind loaded assigned) row other := by
  obtain ⟨old, hold, rfl⟩ := user_commit hrow
  unfold Holds
  rw [link_setLink_of_ne h, latest_commit_of_ne h]
  intro tokenHash hhash
  rw [mem_spent_commit_of_ne h]
  exact hw.holds old hold other tokenHash hhash

theorem live_commit_of_ne (hw : LinkInv w) (h : other ≠ kind) : Live (w.commit i kind loaded assigned) other := by
  unfold Live
  rw [latest_commit_of_ne h]
  intro link hlink heffect hspent hlater
  rw [mem_spent_commit_of_ne h] at hspent
  obtain ⟨row, hrow, hhash⟩ := hw.live other link hlink heffect hspent hlater
  refine ⟨_, Option.mem_map_of_mem _ hrow, ?_⟩
  rw [link_setLink_of_ne h]
  exact hhash

theorem mem_hashes_of_spent (hw : LinkInv w) (hloaded : ∀ tokenHash ∈ loaded.tokenHash, tokenHash ∈ w.hashes)
    {p : LinkKind × String} (hp : p ∈ (w.commit i kind loaded assigned).spent) : p.2 ∈ w.hashes := by
  unfold LinkWorld.commit at hp
  dsimp only at hp
  split_ifs at hp
  · rcases List.mem_append.1 hp with hnew | hold
    · obtain ⟨tokenHash, hhash, rfl⟩ : ∃ tokenHash ∈ loaded.tokenHash, (kind, tokenHash) = p := by simpa using hnew
      exact hloaded tokenHash hhash
    · exact hw.spent p hold
  · exact hw.spent p hp

theorem linkInv_commit (hw : LinkInv w)
    (hissued : (w.commit i kind loaded assigned).issued = w.issued ∨ ∃ link : IssuedLink, w.user ≠ none ∧
      (w.commit i kind loaded assigned).issued = link :: w.issued ∧ link.tokenHash ∈ w.minted.map (·.1) ∧
      link.tokenHash ∉ w.hashes)
    (hspent : ∀ p ∈ (w.commit i kind loaded assigned).spent, p.2 ∈ w.hashes)
    (hholds : ∀ row ∈ (w.commit i kind loaded assigned).user, Holds (w.commit i kind loaded assigned) row kind)
    (hlive : Live (w.commit i kind loaded assigned) kind) : LinkInv (w.commit i kind loaded assigned) := by
  have hgrows : w.hashes ⊆ (w.commit i kind loaded assigned).hashes := by
    refine List.map_subset _ ?_
    rcases hissued with heq | ⟨link, -, heq, -⟩
    · rw [heq]
      exact List.Subset.refl _
    · rw [heq]
      exact List.subset_cons_self _ _
  refine ⟨?_, hw.drawn, ?_, ?_, hw.once, fun p hp => hgrows (hw.effects p hp), ?_, ?_, ?_⟩
  · unfold LinkWorld.hashes
    rcases hissued with heq | ⟨link, -, heq, -, hnew⟩
    · rw [heq]
      exact hw.distinct
    · rw [heq]
      exact List.nodup_cons.2 ⟨hnew, hw.distinct⟩
  · unfold LinkWorld.hashes
    rcases hissued with heq | ⟨link, -, heq, hminted, -⟩
    · rw [heq]
      exact hw.stored
    · rw [heq]
      exact List.cons_subset.2 ⟨hminted, hw.stored⟩
  · intro hnone
    have hgone : w.user = none := Option.map_eq_none_iff.1 hnone
    rcases hissued with heq | ⟨link, hsome, -⟩
    · exact heq.trans (hw.absent hgone)
    · exact absurd hgone hsome
  · exact fun p hp => hgrows (hspent p hp)
  · intro row hrow other
    by_cases h : other = kind
    · rw [h]
      exact hholds row hrow
    · exact holds_commit_of_ne hw h hrow
  · intro other
    by_cases h : other = kind
    · rw [h]
      exact hlive
    · exact live_commit_of_ne hw h

theorem linkInv_store (hw : LinkInv w) (hg : g.Borne ctx w i) (hstores : g.Stores ctx kind loaded assigned)
    (hexpires : ∀ row ∈ w.user, flushed loaded.expiresAt assigned.expiresAt (row.link kind).expiresAt = assigned.expiresAt) :
    LinkInv (w.commit i kind loaded assigned) := by
  obtain ⟨row, hrow, raw, hraw, rfl, hassigned⟩ := hstores
  obtain ⟨hsome, hloaded⟩ := hg.user row hrow
  obtain ⟨hminted, hnew⟩ := hg.raw raw hraw
  have hne : assigned.tokenHash ≠ (row.link kind).tokenHash := by
    intro heq
    exact hnew (hloaded kind _ (heq.symm.trans hassigned))
  have hissued : (w.commit i kind (row.link kind) assigned).issued =
      ⟨kind, ctx.hashToken raw, assigned.expiresAt⟩ :: w.issued := by
    unfold LinkWorld.commit
    dsimp only
    rw [if_neg hne, hassigned]
    rfl
  have hlatest : (w.commit i kind (row.link kind) assigned).latest kind =
      some ⟨kind, ctx.hashToken raw, assigned.expiresAt⟩ := by
    unfold LinkWorld.latest
    rw [hissued]
    exact List.find?_cons_of_pos (by simp)
  have hspent : (w.commit i kind (row.link kind) assigned).spent = w.spent := by
    unfold LinkWorld.commit
    dsimp only
    rw [if_neg fun h => Option.some_ne_none _ (hassigned.symm.trans h.1)]
  have hhash : ∀ old : UserRow, ((row.link kind).flush assigned (old.link kind)).tokenHash = some (ctx.hashToken raw) :=
    fun old => (flushed_of_ne hne).trans hassigned
  refine linkInv_commit hw (.inr ⟨_, hsome, hissued, List.mem_map_of_mem hminted, hnew⟩)
    (fun p => mem_hashes_of_spent hw (hloaded kind)) ?_ ?_
  · intro row' hrow' tokenHash htoken
    obtain ⟨old, hold, rfl⟩ := user_commit hrow'
    rw [link_setLink, hhash] at htoken
    cases htoken
    refine ⟨?_, fun hmem => hnew (hw.effects _ hmem), fun hmem => hnew (hw.spent _ (hspent ▸ hmem))⟩
    rw [hlatest, link_setLink]
    exact congrArg (fun expires => some (IssuedLink.mk kind (ctx.hashToken raw) expires)) (hexpires old hold).symm
  · intro link hlink _ _ _
    rw [hlatest] at hlink
    cases hlink
    obtain ⟨old, hold⟩ := Option.ne_none_iff_exists'.1 hsome
    refine ⟨_, Option.mem_map_of_mem _ hold, ?_⟩
    rw [link_setLink]
    exact hhash old

theorem linkInv_clear (hw : LinkInv w) (hg : g.Borne ctx w i) (hclears : g.Clears kind loaded assigned)
    (hsame : ∀ row ∈ w.user, (row.link kind).tokenHash = none ∨ (row.link kind).tokenHash = loaded.tokenHash) :
    LinkInv (w.commit i kind loaded assigned) := by
  obtain ⟨now, hnow, tokenHash, row, hread, rfl, rfl, hreason⟩ := hclears
  obtain ⟨hseen, hloaded, hmem⟩ := hg.read _ hread
  dsimp only at hseen hloaded hmem
  have hne : (none : Option String) ≠ (row.link kind).tokenHash := by
    rw [hloaded]
    exact (Option.some_ne_none _).symm
  set cleared : LinkColumns := { row.link kind with tokenHash := none, expiresAt := none } with hcleared
  have hissued : (w.commit i kind (row.link kind) cleared).issued = w.issued := by
    unfold LinkWorld.commit
    dsimp only
    rw [if_neg hne]
    rfl
  have hlatest : (w.commit i kind (row.link kind) cleared).latest kind = w.latest kind := by
    unfold LinkWorld.latest
    rw [hissued]
  have hspentHash : ∀ spentHash ∈ (row.link kind).tokenHash, spentHash ∈ w.hashes := by
    intro spentHash hspent
    obtain rfl : tokenHash = spentHash := Option.some.inj (hloaded.symm.trans hspent)
    exact hash_mem hmem
  refine linkInv_commit hw (.inl hissued) (fun p => mem_hashes_of_spent hw hspentHash) ?_ ?_
  · intro row' hrow' storedHash hstored
    obtain ⟨old, hold, rfl⟩ := user_commit hrow'
    rw [link_setLink] at hstored
    have hnone : ((row.link kind).flush cleared (old.link kind)).tokenHash = none := flushed_of_ne hne
    rw [hnone] at hstored
    cases hstored
  · intro link hlink heffect hspent hlater
    rw [hlatest] at hlink
    -- the link that would be lost is the one that was read: it has expired, or it is spent
    have hkept : (kind, link.tokenHash) ∉ w.spent := by
      intro hold
      refine hspent ?_
      unfold LinkWorld.commit
      dsimp only
      split_ifs
      · exact List.mem_append_right _ hold
      · exact hold
    obtain ⟨stored, hstored, hhash⟩ := hw.live kind link hlink heffect hkept hlater
    have heq : link.tokenHash = tokenHash := by
      rcases hsame stored hstored with hnone | hsame
      · rw [hnone] at hhash
        cases hhash
      · exact Option.some.inj (hhash.symm.trans (hsame.trans hloaded))
    exfalso
    rcases hreason with ⟨rfl, hverified⟩ | hexpired
    · refine hspent ?_
      unfold LinkWorld.commit
      dsimp only
      rw [if_pos ⟨rfl, rfl, row, hseen, hverified⟩, hloaded, heq]
      exact List.mem_cons_self
    · have hlink' : link = ⟨kind, tokenHash, (row.link kind).expiresAt⟩ :=
        link_of_hash hw.distinct (latest_mem hlink).1 hmem heq
      obtain ⟨expires, hexpires, hlt⟩ := hlater
      rw [hlink'] at hexpires
      have hexpires' : (row.link kind).expiresAt = some expires := hexpires
      rw [hexpires'] at hexpired
      have hle : expires ≤ now := of_decide_eq_true hexpired
      have hclock : now ≤ w.clock := hg.now now hnow
      exact absurd (Int.lt_of_lt_of_le hlt hle) (Int.not_lt.2 hclock)

theorem linkInv_mark (hw : LinkInv w) (hhash : assigned.tokenHash = loaded.tokenHash)
    (hexpires : assigned.expiresAt = loaded.expiresAt) : LinkInv (w.commit i kind loaded assigned) := by
  have hissued : (w.commit i kind loaded assigned).issued = w.issued := if_pos hhash
  have hlatest : (w.commit i kind loaded assigned).latest kind = w.latest kind := by
    unfold LinkWorld.latest
    rw [hissued]
  have hspent : (w.commit i kind loaded assigned).spent = w.spent := by
    unfold LinkWorld.commit
    dsimp only
    split_ifs with h
    · rw [← hhash, h.1]
      rfl
    · rfl
  have hflush : ∀ old : UserRow, (loaded.flush assigned (old.link kind)).tokenHash = (old.link kind).tokenHash ∧
      (loaded.flush assigned (old.link kind)).expiresAt = (old.link kind).expiresAt := by
    intro old
    unfold LinkColumns.flush
    rw [hhash, hexpires]
    exact ⟨flushed_self, flushed_self⟩
  refine linkInv_commit hw (.inl hissued) ?_ ?_ ?_
  · rw [hspent]
    exact hw.spent
  · intro row hrow tokenHash hstored
    obtain ⟨old, hold, rfl⟩ := user_commit hrow
    rw [link_setLink] at hstored ⊢
    rw [(hflush old).1] at hstored
    rw [hlatest, hspent, (hflush old).2]
    exact hw.holds old hold kind tokenHash hstored
  · intro link hlink heffect hunspent hlater
    rw [hlatest] at hlink
    rw [hspent] at hunspent
    obtain ⟨old, hold, hstored⟩ := hw.live kind link hlink heffect hunspent hlater
    refine ⟨_, Option.mem_map_of_mem _ hold, ?_⟩
    rw [link_setLink, (hflush old).1]
    exact hstored

end Commit

theorem takes_some {tokenHash : String} {now : Instant} (h : w.takes kind tokenHash now = some row) :
    w.user = some row ∧ (row.link kind).tokenHash = some tokenHash ∧ ∃ expires ∈ (row.link kind).expiresAt, now < expires := by
  obtain ⟨huser, htakes⟩ := Option.filter_eq_some_iff.1 h
  exact ⟨huser, of_decide_eq_true htakes⟩

section Consume

variable {tokenHash : String} {now : Instant} {newPassword : Option String} {out : Except LinkSig.Err Bool}
  {hok : ∀ found, out = .ok found → true = true}

theorem apply_consume_none (htakes : w.takes kind tokenHash now = none) :
    w.apply ctx i ⟨.consume kind tokenHash now newPassword, out, true, hok⟩ = w := by
  unfold LinkWorld.apply
  dsimp only
  rw [htakes]

theorem apply_consume_some (htakes : w.takes kind tokenHash now = some row) :
    w.apply ctx i ⟨.consume kind tokenHash now newPassword, out, true, hok⟩ =
      { w with
        user := some (row.consumed now newPassword kind)
        effects := (kind, tokenHash) :: w.effects } := by
  unfold LinkWorld.apply
  dsimp only
  rw [htakes]

end Consume

theorem linkInv_consume {tokenHash : String} {now : Instant} {newPassword : Option String} (hw : LinkInv w)
    (htakes : w.takes kind tokenHash now = some row) :
    LinkInv { w with
      user := some (row.consumed now newPassword kind)
      effects := (kind, tokenHash) :: w.effects } := by
  obtain ⟨huser, hhash, -⟩ := takes_some htakes
  obtain ⟨hlatest, heffect, hspent⟩ := hw.holds row huser kind tokenHash hhash
  refine ⟨hw.distinct, hw.drawn, hw.stored, (fun h => by cases h), List.nodup_cons.2 ⟨heffect, hw.once⟩, ?_, hw.spent, ?_, ?_⟩
  · intro p hp
    rcases List.mem_cons.1 hp with rfl | hold
    · exact hash_mem (latest_mem hlatest).1
    · exact hw.effects p hold
  · rintro _ ⟨⟩ other stored hstored
    by_cases h : other = kind
    · subst h
      rw [link_consumed] at hstored
      cases hstored
    · rw [link_consumed_of_ne h] at hstored ⊢
      obtain ⟨hlast, hunused, hunspent⟩ := hw.holds row huser other stored hstored
      exact ⟨hlast, fun hmem => (List.mem_cons.1 hmem).elim (fun heq => h (congrArg Prod.fst heq)) hunused, hunspent⟩
  · intro other link hlink heffect' hspent' hlater
    have hunused : (other, link.tokenHash) ∉ w.effects := fun hmem => heffect' (List.mem_cons_of_mem _ hmem)
    obtain ⟨stored, hstored, hheld⟩ := hw.live other link hlink hunused hspent' hlater
    obtain rfl : row = stored := Option.some.inj (huser.symm.trans hstored)
    have hother : other ≠ kind := by
      rintro rfl
      obtain rfl : tokenHash = link.tokenHash := Option.some.inj (hhash.symm.trans hheld)
      exact heffect' List.mem_cons_self
    refine ⟨_, rfl, ?_⟩
    rw [link_consumed_of_ne hother]
    exact hheld

/-- **The step lemma**: a commit in time, and anything else, keeps the invariant. -/
theorem linkInv_apply (hw : LinkInv w) (hg : g.Borne ctx w i) (hmay : g.May ctx ev.op) (hall : w.Allowed ctx ev)
    (hin : InTime w ev) : LinkInv (w.apply ctx i ev) := by
  obtain ⟨op, out, took, hok⟩ := ev
  cases op with
  | insertUser row =>
    cases took with
    | true => exact linkInv_insertUser hw (hall rfl) hmay
    | false => exact hw
  | tokenUrlsafe =>
    rcases out with e | raw
    · exact hw
    · exact linkInv_mint hw hall
  | findByToken kind tokenHash =>
    rcases out with e | row
    · exact hw
    · exact linkInv_of_same (w := w) rfl (Int.le_refl _) rfl rfl rfl rfl hw
  | commit kind loaded assigned =>
    cases took with
    | true =>
      rcases hmay with hstores | hclears | ⟨hhash, hexpires⟩
      · have hstores' := hstores
        obtain ⟨row, hrow, raw, hraw, rfl, hassigned⟩ := hstores'
        have hne : assigned.tokenHash ≠ (row.link kind).tokenHash := fun heq =>
          (hg.raw raw hraw).2 ((hg.user row hrow).2 kind _ (heq.symm.trans hassigned))
        have hsome : assigned.tokenHash ≠ none := by
          rw [hassigned]
          exact Option.some_ne_none _
        exact linkInv_store hw hg hstores fun row' hrow' => (hin hne row' hrow').2 hsome
      · have hclears' := hclears
        obtain ⟨now, -, tokenHash, row, hread, rfl, rfl, -⟩ := hclears'
        have hne : (none : Option String) ≠ (row.link kind).tokenHash := by
          rw [(hg.read _ hread).2.1]
          exact (Option.some_ne_none _).symm
        exact linkInv_clear hw hg hclears fun row' hrow' => (hin hne row' hrow').1 rfl
      · exact linkInv_mark hw hhash hexpires
    | false => exact hw
  | consume kind tokenHash now newPassword =>
    cases took with
    | true =>
      rcases htakes : w.takes kind tokenHash now with _ | row
      · rw [apply_consume_none htakes]
        exact hw
      · rw [apply_consume_some htakes]
        exact linkInv_consume hw htakes
    | false => exact hw
  | _ => exact hw

/-! ### The grips -/

theorem issued_commit {loaded assigned : LinkColumns} :
    (w.commit i kind loaded assigned).issued = w.issued ∨ assigned.tokenHash ≠ loaded.tokenHash ∧
      ∃ link : IssuedLink, (w.commit i kind loaded assigned).issued = link :: w.issued ∧
        assigned.tokenHash = some link.tokenHash := by
  unfold LinkWorld.commit
  dsimp only
  split_ifs with h
  · exact .inl rfl
  · rcases hassigned : assigned.tokenHash with _ | tokenHash
    · exact .inl rfl
    · rw [hassigned] at h
      exact .inr ⟨h, _, rfl, rfl⟩

/-- What an exchange of `i` adds to the links is a token of `i`. -/
theorem issued_apply (hg : g.Borne ctx w i) (hmay : g.May ctx ev.op) :
    (w.apply ctx i ev).issued = w.issued ∨ ∃ link : IssuedLink, (w.apply ctx i ev).issued = link :: w.issued ∧
      (link.tokenHash, i) ∈ w.minted := by
  unfold LinkWorld.apply
  split
  case h_4 kind loaded assigned out hok =>
    rcases @issued_commit w i kind loaded assigned with
      hsame | ⟨hne, link, hlink, hassigned⟩
    · exact .inl hsame
    · refine .inr ⟨link, hlink, ?_⟩
      rcases hmay with ⟨row, -, raw, hraw, -, hstored⟩ | ⟨now, -, tokenHash, row, -, rfl, rfl, -⟩ | ⟨hhash, -⟩
      · rw [← show ctx.hashToken raw = link.tokenHash from Option.some.inj (hstored.symm.trans hassigned)]
        exact (hg.raw raw hraw).1
      · cases hassigned
      · exact absurd hhash hne
  case h_5 =>
    split
    · exact .inl rfl
    · exact .inl rfl
  all_goals exact .inl rfl

theorem user_apply (h : w.user ≠ none) : (w.apply ctx i ev).user ≠ none := by
  unfold LinkWorld.apply
  split
  case h_1 => exact Option.some_ne_none _
  case h_4 => exact fun hnone => h (Option.map_eq_none_iff.1 hnone)
  case h_5 =>
    split
    · exact Option.some_ne_none _
    · exact h
  all_goals exact h

theorem clock_apply : (w.apply ctx i ev).clock = w.clock := by
  unfold LinkWorld.apply
  split
  case h_5 => split <;> rfl
  all_goals rfl

theorem minted_apply : w.minted ⊆ (w.apply ctx i ev).minted := by
  unfold LinkWorld.apply
  split
  case h_3 => exact List.subset_cons_self _ _
  case h_5 => split <;> exact List.Subset.refl _
  all_goals exact List.Subset.refl _

theorem seen_apply (h : j ≠ i ∨ ∀ kind tokenHash, ev.op ≠ .findByToken kind tokenHash) :
    (w.apply ctx i ev).seen j = w.seen j := by
  unfold LinkWorld.apply
  split
  case h_2 kind tokenHash row _ _ =>
    rcases h with hji | hop
    · exact Function.update_of_ne hji _ _
    · exact absurd rfl (hop kind tokenHash)
  case h_5 => split <;> rfl
  all_goals rfl

/-- An exchange of `i` leaves a grip whose token it does not store. -/
theorem borne_apply_of {g' : LinkGrip} (hg : g.Borne ctx w i) (hmay : g.May ctx ev.op)
    (hseen : (w.apply ctx i ev).seen j = w.seen j)
    (hraw : ∀ raw ∈ g'.raw, (ctx.hashToken raw, i) ∈ w.minted → (w.apply ctx i ev).issued = w.issued)
    (h : g'.Borne ctx w j) : g'.Borne ctx (w.apply ctx i ev) j := by
  have hissued := @issued_apply ctx _ _ _ ev hg hmay
  refine borne_of_grows user_apply (Int.le_of_eq clock_apply.symm) minted_apply ?_ hseen ?_ h
  · rcases hissued with heq | ⟨link, heq, -⟩
    · rw [heq]
      exact List.Subset.refl _
    · rw [heq]
      exact List.subset_cons_self _ _
  · intro raw hmem hstored
    have hnew := (h.raw raw hmem).2
    unfold LinkWorld.hashes at hstored
    rcases hissued with heq | ⟨link, heq, hlink⟩
    · rw [heq] at hstored
      exact hnew hstored
    · rw [heq] at hstored
      rcases List.mem_cons.1 hstored with hsame | hold
      · rw [← show ctx.hashToken raw = link.tokenHash from hsame] at hlink
        have hquiet := hraw raw hmem hlink
        rw [heq] at hquiet
        exact List.cons_ne_self _ _ hquiet
      · exact hnew hold

theorem drawn_once (hw : LinkInv w) {tokenHash : String} (hi : (tokenHash, i) ∈ w.minted) (hj : (tokenHash, j) ∈ w.minted) :
    i = j :=
  congrArg Prod.snd (List.inj_on_of_nodup_map hw.drawn hi hj rfl)

theorem borne_other (hw : LinkInv w) {g' : LinkGrip} (hg : g.Borne ctx w i) (hmay : g.May ctx ev.op) (hji : j ≠ i)
    (h : g'.Borne ctx w j) : g'.Borne ctx (w.apply ctx i ev) j :=
  borne_apply_of hg hmay (seen_apply (.inl hji)) (fun raw hmem hi => absurd (drawn_once hw (h.raw raw hmem).1 hi) hji) h

theorem borne_start : LinkGrip.Borne ctx w i {} := by
  refine ⟨?_, ?_, ?_, ?_⟩ <;> rintro _ ⟨⟩

theorem borne_apply (hw : LinkInv w) (hg : g.Borne ctx w i) (hmay : g.May ctx ev.op) (hall : w.Allowed ctx ev) :
    (g.step ev).Borne ctx (w.apply ctx i ev) i := by
  obtain ⟨op, out, took, hok⟩ := ev
  cases op with
  | now =>
    rcases out with e | now
    · exact hg
    · exact ⟨hg.user, fun t ht => Int.le_of_eq ((Option.some.inj ht).symm.trans hall), hg.raw, hg.read⟩
  | insertUser row =>
    have hgrows : g.Borne ctx (w.apply ctx i ⟨.insertUser row, out, took, hok⟩) i :=
      borne_apply_of hg hmay (seen_apply (.inr fun _ _ h => by cases h))
        (fun _ _ _ => by cases took <;> rfl) hg
    rcases out with e | _
    · exact hgrows
    · obtain rfl := hok () rfl
      refine ⟨?_, hgrows.now, hgrows.raw, hgrows.read⟩
      rintro _ ⟨⟩
      refine ⟨Option.some_ne_none _, fun kind tokenHash hhash => ?_⟩
      have hempty : row.link kind = {} := by
        cases kind
        · exact hmay.1
        · exact hmay.2
      rw [hempty] at hhash
      cases hhash
  | findByEmail email =>
    rcases out with e | row
    · exact hg
    · refine ⟨?_, hg.now, hg.raw, hg.read⟩
      intro found hfound
      have hfilter : found ∈ w.user.filter fun row => ctx.lower row.email = email := by
        rw [← show row = _ from hall]
        exact hfound
      have huser : w.user = some found := (Option.filter_eq_some_iff.1 hfilter).1
      refine ⟨?_, fun kind tokenHash hhash => hash_mem (hash_of_holds hw huser hhash)⟩
      show w.user ≠ none
      rw [huser]
      exact Option.some_ne_none _
  | findByToken kind tokenHash =>
    rcases out with e | row
    · exact hg
    · refine ⟨hg.user, hg.now, hg.raw, ?_⟩
      intro p hp
      obtain ⟨found, hfound, rfl⟩ := Option.map_eq_some_iff.1 hp
      have hrow : row = w.user.filter fun row => (row.link kind).tokenHash = some tokenHash := hall
      rw [hfound] at hrow
      obtain ⟨huser, hhash⟩ := Option.filter_eq_some_iff.1 hrow.symm
      have hhash' : (found.link kind).tokenHash = some tokenHash := of_decide_eq_true hhash
      refine ⟨?_, hhash', hash_of_holds hw huser hhash'⟩
      show Function.update w.seen i row i = some found
      rw [Function.update_self, hfound]
  | tokenUrlsafe =>
    rcases out with e | raw
    · exact hg
    · refine ⟨hg.user, hg.now, ?_, hg.read⟩
      rintro _ ⟨⟩
      exact ⟨List.mem_cons_self, fun hmem => hall (hw.stored hmem)⟩
  | commit kind loaded assigned =>
    have hstored : LinkGrip.Borne ctx w i { g with raw := none } :=
      ⟨hg.user, hg.now, (fun _ h => by cases h), hg.read⟩
    have hnone : ∀ raw ∈ (none : Option String), (ctx.hashToken raw, i) ∈ w.minted →
        (w.apply ctx i ⟨.commit kind loaded assigned, out, took, hok⟩).issued = w.issued := fun _ h => by cases h
    exact borne_apply_of hg hmay (seen_apply (.inr fun _ _ h => by cases h)) hnone hstored
  | consume kind tokenHash now newPassword =>
    refine borne_apply_of hg hmay (seen_apply (.inr fun _ _ h => by cases h)) (fun _ _ _ => ?_) hg
    cases took with
    | true =>
      rcases htakes : w.takes kind tokenHash now with _ | row
      · rw [apply_consume_none htakes]
      · rw [apply_consume_some htakes]
    | false => rfl
  | _ => exact hg

/-- **What the requests know of the links** is kept by every step that is in time. -/
theorem links_watched : (linkSystem ctx).Watched (fun _ => linkMonitor ctx) {} LinkInv (fun w i _ g => g.Borne ctx w i)
    fun c _ _ ev => InTime c.world ev where
  start := by
    rintro w w' i tag p hw hspawn
    cases tag with
    | request request =>
      obtain ⟨rfl, rfl⟩ := hspawn
      refine ⟨linkInv_of_same (w := w) rfl (Int.le_refl _) rfl rfl rfl rfl hw, ⟨borne_start, wp_request request⟩, ?_⟩
      intro j tag' g hji hg
      exact ⟨hg.user, hg.now, hg.raw, fun p hp => ⟨(Function.update_of_ne hji _ _).trans (hg.read p hp).1, (hg.read p hp).2⟩⟩
    | tick clock =>
      obtain ⟨rfl, hclock, rfl⟩ := hspawn
      refine ⟨linkInv_of_same (w := w) rfl hclock rfl rfl rfl rfl hw, ⟨borne_start, trivial⟩, ?_⟩
      intro j tag' g hji hg
      exact ⟨hg.user, fun now hnow => Int.le_trans (hg.now now hnow) hclock, hg.raw, hg.read⟩
  act := by
    intro c i tag ev g hw hg hmay hall hin
    exact ⟨linkInv_apply hw hg hmay hall hin, trivial, borne_apply hw hg hmay hall⟩
  other := by
    intro c i tag ev g hw hg hmay hall _ j tag' g' q hji _ hg'
    exact borne_other hw hg hmay hji hg'

end Keeps

/-! ## Along a run -/

section Runs

/-- A link takes effect once, and the one issued last can be taken until it is used or expires. -/
structure LinkWorld.Honest (w : LinkWorld) : Prop where
  once : w.effects.Nodup
  acceptable : ∀ kind, ∀ link ∈ w.latest kind, (kind, link.tokenHash) ∉ w.effects → (kind, link.tokenHash) ∉ w.spent →
    (∃ expires ∈ link.expiresAt, w.clock < expires) → w.takes kind link.tokenHash w.clock ≠ none

/-- What takes effect is the link issued last of its kind, before it expires. -/
def LinkWorld.TakesLatest (w w' : LinkWorld) : Prop :=
  w'.effects = w.effects ∨ ∃ kind, ∃ link ∈ w.latest kind, (∃ expires ∈ link.expiresAt, w.clock < expires) ∧
    w'.effects = (kind, link.tokenHash) :: w.effects

abbrev LinkConfig (ctx : LinkContext) : Type := (linkSystem ctx).Config

def TimelyStep (c : LinkConfig ctx) (l : (linkSystem ctx).Label) (_ : LinkConfig ctx) : Prop :=
  match l with
  | .act _ _ ev => InTime c.world ev
  | _ => True

def OneTime (c : LinkConfig ctx) (_ : (linkSystem ctx).Label) (c' : LinkConfig ctx) : Prop :=
  LinkWorld.Honest c'.world ∧ LinkWorld.TakesLatest c.world c'.world

variable {w' : LinkWorld} {ev : Event LinkSig}

theorem honest_of_inv (hw : LinkInv w) : w.Honest := by
  refine ⟨hw.once, fun kind link hlink heffect hspent hlater => ?_⟩
  obtain ⟨row, hrow, hhash⟩ := hw.live kind link hlink heffect hspent hlater
  obtain ⟨hlatest, -⟩ := hw.holds row hrow kind link.tokenHash hhash
  have heq : link = ⟨kind, link.tokenHash, (row.link kind).expiresAt⟩ := Option.some.inj (hlink.symm.trans hlatest)
  have hexpires : link.expiresAt = (row.link kind).expiresAt := congrArg IssuedLink.expiresAt heq
  rw [hexpires] at hlater
  have htakes : w.takes kind link.tokenHash w.clock = some row :=
    Option.filter_eq_some_iff.2 ⟨hrow, decide_eq_true ⟨hhash, hlater⟩⟩
  rw [htakes]
  exact Option.some_ne_none _

theorem takesLatest_apply (hw : LinkInv w) (hin : InTime w ev) : w.TakesLatest (w.apply ctx i ev) := by
  unfold LinkWorld.apply
  split
  case h_5 kind tokenHash now newPassword out hok =>
    split
    · rename_i row htakes
      obtain ⟨huser, hhash, -⟩ := takes_some htakes
      obtain ⟨hlatest, -⟩ := hw.holds row huser kind tokenHash hhash
      exact .inr ⟨kind, _, hlatest, hin row htakes, rfl⟩
    · exact .inl rfl
  all_goals exact .inl rfl

/-- No account yet, nothing drawn, issued or opened, and no request running. -/
structure Fresh (w : LinkWorld) : Prop where
  user : w.user = none
  minted : w.minted = []
  issued : w.issued = []
  effects : w.effects = []
  spent : w.spent = []

theorem linkInv_fresh (h : Fresh w) : LinkInv w := by
  obtain ⟨user, clock, minted, issued, effects, spent, seen⟩ := w
  obtain ⟨rfl, rfl, rfl, rfl, rfl⟩ := h
  refine ⟨List.nodup_nil, List.nodup_nil, List.nil_subset _, fun _ => rfl, List.nodup_nil, ?_, ?_, ?_, ?_⟩
  · rintro _ ⟨⟩
  · rintro _ ⟨⟩
  · rintro _ ⟨⟩
  · rintro kind _ ⟨⟩

/-- **Links in time**: where no commit clears a link that was issued since its read, and no link expires between the read
of the clock and its UPDATE, each link takes effect at most once, before it expires and while it is the latest, and the
latest can be taken until it is used, superseded or expired. -/
theorem links_in_time {c : LinkConfig ctx} {tr : List ((linkSystem ctx).Label × LinkConfig ctx)}
    (hfresh : Fresh c.world) (hfree : ∀ i, c.threads i = none) (hs : (linkSystem ctx).Steps c tr)
    (htimely : Along TimelyStep c tr) : Along OneTime c tr := by
  have hP := preserved_of_watched (@links_watched ctx)
  have hI := watched_start (M := fun _ => linkMonitor ctx) (V := fun w i _ g => LinkGrip.Borne ctx w i g) hfree
    (linkInv_fresh hfresh)
  refine along_of_step (fun c l c' hI hst hl => ?_) hI hs htimely
  have hact : ActOnly (fun c _ _ ev => InTime c.world ev) c l c' := by
    cases l with
    | act i tag ev => exact hl
    | _ => trivial
  have hI' := inv_step hP hI hst hact
  refine ⟨hI', honest_of_inv hI'.1, ?_⟩
  cases hst with
  | start hidle hspawn =>
    rename_i i tag p w'
    cases tag with
    | request request =>
      obtain ⟨-, rfl⟩ := hspawn
      exact .inl rfl
    | tick clock =>
      obtain ⟨-, -, rfl⟩ := hspawn
      exact .inl rfl
  | act hrun hall => exact takesLatest_apply hI.1 hl
  | exit => exact .inl rfl

end Runs

/-! ## Concrete runs -/

section Concrete

def tokenDigests : List (String × String) := [
  ("token-1", "3f08aace122ee2368432c1ca23a049bc640bafbf00fdf33a52429f38ba12dbf9"),
  ("token-2", "0f6bffa9661cb5dd2f3f7b2929f33061f58a7ba7fdd689530b1a306f8ed8f3ec"),
  ("token-3", "a2f2b0b588bcc84fbf4d2ac8cc086b6f84de3e00fa3c1ba11e38ac078eb03192")]

def oneDay : LinkContext where
  hashToken raw := (tokenDigests.lookup raw).getD ""
  lower := id
  ttl
    | .verification => 86400000000
    | .reset => 3600000000
  cooldown _ := 60000000

/-- Every statement answers from the row, every message is handed over, and the tokens are drawn in turn. -/
def rowReply (w : LinkWorld) : (op : LinkOp) → op.Ans
  | .now => w.clock
  | .existing username email => decide (∃ row ∈ w.user, row.username = username ∨ row.email = email)
  | .insertUser _ => ()
  | .findByEmail email => w.user.filter fun row => oneDay.lower row.email = email
  | .findByToken kind tokenHash => w.user.filter fun row => (row.link kind).tokenHash = some tokenHash
  | .tokenUrlsafe => (tokenDigests[w.minted.length]?.map (·.1)).getD ""
  | .hashPassword password => password
  | .commit _ _ _ => ()
  | .send _ _ _ => ()
  | .consume kind tokenHash now _ => (w.takes kind tokenHash now).isSome

def rowCheck (w : LinkWorld) : Event LinkSig → Bool
  | ⟨_, .error _, _, _⟩ => false
  | ⟨.now, .ok now, _, _⟩ => now = w.clock
  | ⟨.existing username email, .ok found, _, _⟩ => found = rowReply w (.existing username email)
  | ⟨.insertUser _, .ok _, _, _⟩ => w.user.isNone
  | ⟨.findByEmail email, .ok row, _, _⟩ => row = rowReply w (.findByEmail email)
  | ⟨.findByToken kind tokenHash, .ok row, _, _⟩ => row = rowReply w (.findByToken kind tokenHash)
  | ⟨.tokenUrlsafe, .ok raw, _, _⟩ => oneDay.hashToken raw ∉ w.minted.map (·.1)
  | ⟨.consume kind tokenHash now _, .ok found, _, _⟩ => found = (w.takes kind tokenHash now).isSome
  | _ => true

theorem allowed_of_rowCheck {ev : Event LinkSig} (h : rowCheck w ev = true) : w.Allowed oneDay ev := by
  obtain ⟨op, out, took, hok⟩ := ev
  rcases out with e | a
  · cases op <;> cases h
  · cases op with
    | now =>
      have hnow : a = w.clock := of_decide_eq_true h
      exact hnow
    | existing username email =>
      obtain rfl : a = rowReply w (.existing username email) := of_decide_eq_true h
      exact decide_eq_true_iff
    | insertUser row => exact fun _ => Option.isNone_iff_eq_none.1 h
    | findByEmail email =>
      have hrow : a = rowReply w (.findByEmail email) := of_decide_eq_true h
      exact hrow
    | findByToken kind tokenHash =>
      have hrow : a = rowReply w (.findByToken kind tokenHash) := of_decide_eq_true h
      exact hrow
    | tokenUrlsafe =>
      have hnew : oneDay.hashToken a ∉ w.minted.map (·.1) := of_decide_eq_true h
      exact hnew
    | consume kind tokenHash now newPassword =>
      have hfound : a = (w.takes kind tokenHash now).isSome := of_decide_eq_true h
      exact hfound
    | _ => trivial

def rowDriver : (linkSystem oneDay).Driver where
  reply w op := .ok (rowReply w op)
  check w _ _ ev := rowCheck w ev
  sound h := allowed_of_rowCheck h

def asks (request : LinkRequest) (i : ℕ) : (linkSystem oneDay).Starter i where
  start w := some (.request request, request.program oneDay, { w with seen := Function.update (LinkWorld.seen w) i none })
  sound h := by
    cases h
    exact ⟨rfl, rfl⟩

def passes (microseconds : ℕ) (i : ℕ) : (linkSystem oneDay).Starter i where
  start w := some (.tick (LinkWorld.clock w + microseconds), .ret (), { w with clock := LinkWorld.clock w + microseconds })
  sound h := by
    cases h
    exact ⟨rfl, Int.le_add_of_nonneg_right (Int.natCast_nonneg _), rfl⟩

/-- So many exchanges of a request. -/
def exchanges (i : ℕ) : ℕ → List (linkSystem oneDay).Move
  | 0 => []
  | n + 1 => .go i :: exchanges i n

instance decidableInTime (w : LinkWorld) : ∀ ev : Event LinkSig, Decidable (InTime w ev)
  | ⟨.commit kind loaded assigned, _, true, _⟩ =>
    inferInstanceAs (Decidable (assigned.tokenHash ≠ loaded.tokenHash → ∀ row ∈ w.user,
      (assigned.tokenHash = none → (row.link kind).tokenHash = none ∨ (row.link kind).tokenHash = loaded.tokenHash) ∧
      (assigned.tokenHash ≠ none →
        flushed loaded.expiresAt assigned.expiresAt (row.link kind).expiresAt = assigned.expiresAt)))
  | ⟨.consume kind tokenHash now _, _, true, _⟩ =>
    inferInstanceAs (Decidable (∀ row ∈ w.takes kind tokenHash now, ∃ expires ∈ (row.link kind).expiresAt, w.clock < expires))
  | ⟨.commit _ _ _, _, false, _⟩ | ⟨.consume _ _ _ _, _, false, _⟩ | ⟨.now, _, _, _⟩ | ⟨.existing _ _, _, _, _⟩
  | ⟨.insertUser _, _, _, _⟩ | ⟨.findByEmail _, _, _, _⟩ | ⟨.findByToken _ _, _, _, _⟩ | ⟨.tokenUrlsafe, _, _, _⟩
  | ⟨.hashPassword _, _, _, _⟩ | ⟨.send _ _ _, _, _, _⟩ => isTrue trivial

instance decidableTimelyStep (c : LinkConfig oneDay) :
    ∀ (l : (linkSystem oneDay).Label) (c' : LinkConfig oneDay), Decidable (TimelyStep c l c')
  | .act _ _ ev, _ => decidableInTime c.world ev
  | .start _ _, _ | .exit _, _ => isTrue trivial

def opening : LinkConfig oneDay := ⟨({} : LinkWorld), fun _ => none⟩

theorem fresh_opening : Fresh opening.world := ⟨rfl, rfl, rfl, rfl, rfl⟩

def register : LinkRequest := .register 7 "ada" "ada@example.com" "correct horse"

/-- An account is registered, and its link is opened twice: both requests find the row before either consumes the link. -/
def verified : List ((linkSystem oneDay).Label × LinkConfig oneDay) :=
  Sys.drive rowDriver opening
    (.start 0 (asks register 0) :: exchanges 0 9 ++ .start 1 (asks (.verify "token-1") 1) :: exchanges 1 2 ++
      .start 2 (asks (.verify "token-1") 2) :: exchanges 2 2 ++ exchanges 1 1 ++ exchanges 2 1)

theorem links_in_time_verified : verified.length = 18 ∧ Along OneTime opening verified := by
  refine ⟨by decide +kernel, ?_⟩
  have htimely : Along TimelyStep opening verified :=
    @of_decide_eq_true _ (@decidableAlong _ _ _ decidableTimelyStep _ _) (by decide +kernel)
  exact links_in_time fresh_opening (fun _ => rfl) (steps_drive rowDriver _ _) htimely

/-- An expired link is opened, a new one is sent before the row that was read is cleared, and the clear takes it away. -/
def resendRaces : List ((linkSystem oneDay).Label × LinkConfig oneDay) :=
  Sys.drive rowDriver opening
    (.start 0 (asks register 0) :: exchanges 0 9 ++ .start 1 (passes 86400000000 1) :: .start 2 (asks (.verify "token-1") 2) ::
      exchanges 2 2 ++ .start 3 (asks (.resend "ada@example.com") 3) :: exchanges 3 8 ++ exchanges 2 1)

/-- The link issued last is neither used nor expired, and cannot be taken. -/
def Undone (w : LinkWorld) : Prop :=
  ∃ link ∈ w.latest .verification, (.verification, link.tokenHash) ∉ w.effects ∧ (.verification, link.tokenHash) ∉ w.spent ∧
    (∃ expires ∈ link.expiresAt, w.clock < expires) ∧ w.takes .verification link.tokenHash w.clock = none

instance decidableUndone (w : LinkWorld) : Decidable (Undone w) :=
  inferInstanceAs (Decidable (∃ link ∈ w.latest .verification, (.verification, link.tokenHash) ∉ w.effects ∧
    (.verification, link.tokenHash) ∉ w.spent ∧ (∃ expires ∈ link.expiresAt, w.clock < expires) ∧
    w.takes .verification link.tokenHash w.clock = none))

theorem resendRaces_ends : Undone (lastConfig opening resendRaces).world :=
  @of_decide_eq_true _ (decidableUndone _) (by decide +kernel)

theorem not_honest_of_undone (h : Undone w) : ¬ w.Honest := by
  rintro ⟨-, hacceptable⟩
  obtain ⟨link, hlink, heffect, hspent, hlater, htakes⟩ := h
  exact hacceptable .verification link hlink heffect hspent hlater htakes

/-- **An expired link that is opened while a new one is sent** takes the new one away. -/
theorem resend_undone : Fresh opening.world ∧ (linkSystem oneDay).Steps opening resendRaces ∧
    Undone (lastConfig opening resendRaces).world ∧ ¬ Along OneTime opening resendRaces := by
  refine ⟨fresh_opening, steps_drive rowDriver _ _, resendRaces_ends, fun h => ?_⟩
  have hstart : LinkWorld.Honest opening.world := honest_of_inv (linkInv_fresh fresh_opening)
  have hall : Along (fun _ _ c' => LinkWorld.Honest c'.world) opening resendRaces := along_mono (fun _ _ _ h => h.1) h
  exact not_honest_of_undone resendRaces_ends (last_of_along hstart hall)

end Concrete

end Transform.Accounts
