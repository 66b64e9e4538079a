import Transform.Accounts.Phone

/-!
# Accounts.PhoneRuns — what the requests on one account make of its number

* `wp_phoneRequest`: a request compares and takes only a code of the row it has read, whose attempts were left.
* `guesses_bounded`: among requests that verify one code, no more wrong codes are compared than the ceiling allows, and none
  is taken beyond it, exactly if each request overlaps fewer guesses than its read leaves.
* `verified_in_full`: where every commit writes the columns that it assigns, a verified number is the one that the accepted
  code was sent to, and no code is left by a delete.
-/

namespace Transform.Accounts

open Lib Conversions

variable {ctx : PhoneContext} {w : PhoneWorld} {i j : ℕ} {tag : PhoneTag}

/-! ## One request -/

section Request

/-- What a request has of the account: the row it has read, the digest of a code it has drawn, and whether it has compared a
wrong code. -/
structure PhoneGrip where
  row : Option UserRow := none
  drawn : Option String := none
  wrong : Bool := false

/-- The row read has a code with attempts left. -/
def PhoneGrip.Open (ctx : PhoneContext) (g : PhoneGrip) (codeHash : String) : Prop :=
  ∃ row ∈ g.row, row.phone.codeHash = some codeHash ∧ row.phone.attempts < ctx.maxAttempts

/-- A commit stores a code that was drawn, with the number it is for. -/
def PhoneGrip.Issues (g : PhoneGrip) (loaded assigned : PhoneColumns) : Prop :=
  (∃ row ∈ g.row, loaded = row.phone) ∧ (∃ codeHash ∈ g.drawn, assigned.codeHash = some codeHash) ∧
    assigned.phoneVerified = false ∧ assigned.phoneNumber ≠ none

def PhoneTag.issues : PhoneTag → Bool
  | .request (.request _) | .request .resend => true
  | _ => false

def PhoneTag.deletes : PhoneTag → Bool
  | .request .delete => true
  | _ => false

theorem not_issues_of_deletes (h : tag.deletes = true) : ¬ tag.issues = true := by
  rcases tag with (_ | _ | _ | _) | _ <;> simp_all [PhoneTag.issues, PhoneTag.deletes]

/-- A commit writes neither the number nor the flag nor the digest. -/
def Marks (loaded assigned : PhoneColumns) : Prop :=
  assigned.phoneNumber = loaded.phoneNumber ∧ assigned.phoneVerified = loaded.phoneVerified ∧
    assigned.codeHash = loaded.codeHash

/-- What a request may ask. -/
def PhoneGrip.May (ctx : PhoneContext) (tag : PhoneTag) (g : PhoneGrip) : PhoneOp → Prop
  | .commit loaded assigned => tag.issues = true ∧ (g.Issues loaded assigned ∨ Marks loaded assigned) ∨
      tag.deletes = true ∧ assigned = {}
  | .compareDigest _ codeHash => g.Open ctx codeHash
  | .countGuess => g.wrong = true ∨ ∃ row ∈ g.row, row.phone.codeHash = some ""
  | .consume codeHash _ => g.Open ctx codeHash
  | _ => True

/-- A comparison answers whether the digests are the same. -/
def Compares : Event PhoneSig → Prop
  | ⟨.compareDigest candidate codeHash, out, _, _⟩ => out = .ok (decide (candidate = codeHash))
  | _ => True

def PhoneGrip.step (ctx : PhoneContext) (g : PhoneGrip) : Event PhoneSig → PhoneGrip
  | ⟨.currentUser, .ok user, _, _⟩ => { g with row := some user, drawn := none }
  | ⟨.generateCode, .ok code, _, _⟩ => { g with drawn := g.row.map fun row => ctx.hashCode row.id code }
  | ⟨.commit _ _, _, _, _⟩ => { g with drawn := none }
  | ⟨.compareDigest _ _, .ok false, _, _⟩ => { g with wrong := true }
  | ⟨.countGuess, _, _, _⟩ => { g with wrong := false }
  | _ => g

def phoneMonitor (ctx : PhoneContext) (tag : PhoneTag) : Monitor PhoneSig PhoneGrip :=
  ⟨PhoneGrip.May ctx tag, fun _ => Compares, PhoneGrip.step ctx⟩

variable {g : PhoneGrip} {user : UserRow}

theorem wpe_onPhone {op : PhoneOp} {Q : op.Ans → PhoneGrip → Prop} (hmay : g.May ctx tag op)
    (hQ : ∀ a, Compares (.done op (.ok a)) → Q a (g.step ctx (.done op (.ok a)))) :
    wpe (phoneMonitor ctx tag) (onPhone op) Q (fun _ _ => True) g :=
  wpe_ask.2 ⟨hmay, hQ, fun _ _ _ _ => trivial⟩

theorem wpe_sendPhoneCode {phoneNumber : String} (htag : tag.issues = true) (hg : g.row = some user) :
    wpe (phoneMonitor ctx tag) (sendPhoneCode ctx user phoneNumber) (fun _ _ => True) (fun _ _ => True) g := by
  unfold sendPhoneCode issuePhoneCode
  rw [wpe_bind, wpe_bind]
  refine wpe_onPhone trivial fun reference _ => ?_
  rw [wpe_bind]
  refine wpe_onPhone trivial fun code _ => ?_
  rw [wpe_pure]
  dsimp only
  rw [wpe_bind]
  have hdrawn : (g.row.map fun row => ctx.hashCode row.id code) = some (ctx.hashCode user.id code) := by
    rw [hg]
    rfl
  refine wpe_onPhone (.inl ⟨htag, .inl ⟨⟨user, hg, rfl⟩, ⟨_, hdrawn, rfl⟩, rfl, Option.some_ne_none _⟩⟩) fun _ _ => ?_
  rw [wpe_bind]
  refine wpe_onPhone trivial fun _ _ => ?_
  rw [wpe_bind]
  exact wpe_onPhone (.inl ⟨htag, .inr ⟨rfl, rfl, rfl⟩⟩) fun _ _ => trivial

theorem wpe_sendAndReport {phoneNumber : String} {failure : AccountError → AccountError} (htag : tag.issues = true)
    (hg : g.row = some user) :
    wpe (phoneMonitor ctx tag) (sendAndReport ctx user phoneNumber failure) (fun _ _ => True) (fun _ _ => True) g := by
  unfold sendAndReport
  rw [wpe_bind, wpe_tryCatch]
  refine wpe_mono (wpe_sendPhoneCode htag hg) (fun sent g _ => ?_) fun _ _ _ => trivial
  rw [wpe_bind]
  exact wpe_onPhone trivial fun _ _ => trivial

theorem wpe_requestPhoneVerification {raw : String} (htag : tag.issues = true) :
    wpe (phoneMonitor ctx tag) (requestPhoneVerification ctx raw) (fun _ _ => True) (fun _ _ => True) g := by
  unfold requestPhoneVerification
  rw [wpe_bind]
  refine wpe_onPhone trivial fun user _ => ?_
  rw [wpe_bind]
  refine wpe_onPhone trivial fun now _ => ?_
  split
  · trivial
  rw [wpe_bind]
  refine wpe_onPhone trivial fun other _ => ?_
  rcases other with _ | verified
  · dsimp only
    split_ifs
    · exact wpe_sendAndReport htag rfl
    · trivial
  · trivial

theorem wpe_resendPhoneVerification (htag : tag.issues = true) :
    wpe (phoneMonitor ctx tag) (resendPhoneVerification ctx) (fun _ _ => True) (fun _ _ => True) g := by
  unfold resendPhoneVerification
  rw [wpe_bind]
  refine wpe_onPhone trivial fun user _ => ?_
  rw [wpe_bind]
  refine wpe_onPhone trivial fun now _ => ?_
  split
  · trivial
  · split_ifs
    · trivial
    · exact wpe_sendAndReport htag rfl
    · trivial

theorem wpe_codeMatches {code codeHash : String} (hopen : g.Open ctx codeHash) :
    wpe (phoneMonitor ctx tag) (codeMatches ctx user.id code (some codeHash))
      (fun matched g' => g'.row = g.row ∧ if matched then ctx.hashCode user.id code = codeHash
        else g'.wrong = true ∨ codeHash = "")
      (fun _ _ => True) g := by
  unfold codeMatches
  dsimp only
  split_ifs with hempty
  · exact ⟨rfl, .inr hempty⟩
  · refine wpe_onPhone hopen fun matched hcompares => ?_
    have hmatched : matched = decide (ctx.hashCode user.id code = codeHash) := Except.ok.inj hcompares
    rcases matched with _ | _
    · exact ⟨rfl, .inl rfl⟩
    · exact ⟨rfl, of_decide_eq_true hmatched.symm⟩

theorem wpe_verifyPhone {code : String} :
    wpe (phoneMonitor ctx tag) (verifyPhone ctx code) (fun _ _ => True) (fun _ _ => True) g := by
  unfold verifyPhone
  rw [wpe_bind]
  refine wpe_onPhone trivial fun user _ => ?_
  rw [wpe_bind]
  refine wpe_onPhone trivial fun now _ => ?_
  split_ifs with hdead hexhausted
  · trivial
  · trivial
  rw [wpe_bind]
  rcases hhash : user.phone.codeHash with _ | codeHash
  · rw [hhash] at hdead
    exact absurd rfl hdead
  have hleft : user.phone.attempts < ctx.maxAttempts := by
    unfold attemptsExhausted at hexhausted
    simpa using hexhausted
  refine wpe_mono (wpe_codeMatches ⟨user, rfl, hhash, hleft⟩) ?_ fun _ _ h => h
  rintro matched g' ⟨hrow, hmatched⟩
  replace hrow : g'.row = some user := hrow
  rcases matched with _ | _
  · rw [if_neg (by decide), wpe_bind]
    refine wpe_onPhone ?_ fun _ _ => trivial
    refine hmatched.imp id ?_
    rintro rfl
    exact ⟨user, hrow, hhash⟩
  · rw [if_pos rfl]
    unfold consumeCode
    rw [wpe_bind]
    refine wpe_onPhone ?_ fun taken _ => ?_
    · rw [show ctx.hashCode user.id code = codeHash from hmatched]
      exact ⟨user, hrow, hhash, hleft⟩
    · split_ifs
      · trivial
      · trivial

theorem wpe_deletePhoneNumber :
    wpe (phoneMonitor ctx (.request .delete)) deletePhoneNumber (fun _ _ => True) (fun _ _ => True) g := by
  unfold deletePhoneNumber
  rw [wpe_bind]
  exact wpe_onPhone trivial fun user _ => wpe_onPhone (.inr ⟨rfl, rfl⟩) fun _ _ => trivial

/-- **A request** compares, counts and takes only a code that it has read, and writes only what it has drawn. -/
theorem wp_phoneRequest (request : PhoneRequest) :
    wp (phoneMonitor ctx (.request request)) (request.program ctx) (fun _ _ => True) {} := by
  cases request with
  | request phoneNumber => exact wp_thread_of_wpe (R := fun _ => True) (wpe_requestPhoneVerification rfl)
  | resend => exact wp_thread_of_wpe (R := fun _ => True) (wpe_resendPhoneVerification rfl)
  | verify code => exact wp_thread_of_wpe (R := fun _ => True) wpe_verifyPhone
  | delete => exact wp_thread_of_wpe (R := fun _ => True) wpe_deletePhoneNumber

end Request

/-! ## The verified number -/

section Verified

/-- A verified number is the one that the code accepted last was sent to. -/
def PhoneWorld.Truthful (w : PhoneWorld) : Prop :=
  w.user.phone.phoneVerified = true →
    ∃ phoneNumber, w.user.phone.phoneNumber = some phoneNumber ∧ w.accepted.head? = some (some phoneNumber)

structure PhoneInv (w : PhoneWorld) : Prop where
  drawn : ∀ codeHash ∈ w.user.phone.codeHash, codeHash ∈ w.minted
  code : ∀ codeHash ∈ w.user.phone.codeHash, w.user.phone.phoneVerified = false ∧ w.user.phone.phoneNumber ≠ none ∧
    w.sentTo codeHash = w.user.phone.phoneNumber
  truthful : w.Truthful

/-- What the account bears out of a request's grip. -/
structure PhoneGrip.Borne (w : PhoneWorld) (g : PhoneGrip) : Prop where
  row : ∀ row ∈ g.row, row.id = w.user.id ∧ ∀ codeHash ∈ row.phone.codeHash, codeHash ∈ w.minted
  drawn : ∀ codeHash ∈ g.drawn, codeHash ∈ w.minted ∧ ∀ row ∈ g.row, row.phone.codeHash ≠ some codeHash

/-- A commit writes the number, the flag and the digest that it assigns. -/
def WritesInFull (loaded assigned stored : PhoneColumns) : Prop :=
  (loaded.flush assigned stored).phoneNumber = assigned.phoneNumber ∧
  (loaded.flush assigned stored).phoneVerified = assigned.phoneVerified ∧
  (loaded.flush assigned stored).codeHash = assigned.codeHash

/-- A delete, and the commit of a new code, write in full. -/
def InFull (w : PhoneWorld) (tag : PhoneTag) : Event PhoneSig → Prop
  | ⟨.commit loaded assigned, _, true, _⟩ =>
    tag.deletes = true ∨ assigned.codeHash ≠ loaded.codeHash → WritesInFull loaded assigned w.user.phone
  | _ => True

variable {g : PhoneGrip} {ev : Event PhoneSig} {loaded assigned : PhoneColumns}

theorem phoneInv_issue (hg : g.Borne w) (hissues : g.Issues loaded assigned)
    (hfull : assigned.codeHash ≠ loaded.codeHash → WritesInFull loaded assigned w.user.phone) :
    PhoneInv (w.commit loaded assigned) := by
  obtain ⟨⟨row, hrow, rfl⟩, ⟨codeHash, hdrawn, hassigned⟩, hverified, hnumber⟩ := hissues
  obtain ⟨hminted, hnew⟩ := hg.drawn codeHash hdrawn
  have hne : assigned.codeHash ≠ row.phone.codeHash := fun heq => hnew row hrow (heq.symm.trans hassigned)
  obtain ⟨hphone, hflag, hhash⟩ := hfull hne
  have hsent : (w.commit row.phone assigned).sentTo codeHash = assigned.phoneNumber := by
    unfold PhoneWorld.sentTo PhoneWorld.commit
    dsimp only
    rw [if_neg hne, hassigned]
    simp
  refine ⟨?_, ?_, ?_⟩
  · intro stored hstored
    obtain rfl : codeHash = stored := Option.some.inj ((hhash.trans hassigned).symm.trans hstored)
    exact hminted
  · intro stored hstored
    obtain rfl : codeHash = stored := Option.some.inj ((hhash.trans hassigned).symm.trans hstored)
    refine ⟨hflag.trans hverified, ?_, hsent.trans hphone.symm⟩
    show (row.phone.flush assigned w.user.phone).phoneNumber ≠ none
    rw [hphone]
    exact hnumber
  · intro htrue
    have hfalse : (w.commit row.phone assigned).user.phone.phoneVerified = false := hflag.trans hverified
    rw [hfalse] at htrue
    cases htrue

theorem phoneInv_delete (hfull : WritesInFull loaded {} w.user.phone) :
    PhoneInv (w.commit loaded {}) ∧ (w.commit loaded {}).user.phone.codeHash = none := by
  obtain ⟨hphone, hflag, hhash⟩ := hfull
  have hnone : (w.commit loaded {}).user.phone.codeHash = none := hhash
  refine ⟨⟨fun codeHash hstored => ?_, fun codeHash hstored => ?_, fun htrue => ?_⟩, hnone⟩
  · rw [hnone] at hstored
    cases hstored
  · rw [hnone] at hstored
    cases hstored
  · have hfalse : (w.commit loaded {}).user.phone.phoneVerified = false := hflag
    rw [hfalse] at htrue
    cases htrue

theorem phoneInv_mark (hw : PhoneInv w) (hmarks : Marks loaded assigned) : PhoneInv (w.commit loaded assigned) := by
  obtain ⟨hnumber, hverified, hhash⟩ := hmarks
  have hphone : (loaded.flush assigned w.user.phone).phoneNumber = w.user.phone.phoneNumber := by
    unfold PhoneColumns.flush
    rw [hnumber]
    exact flushed_self
  have hflag : (loaded.flush assigned w.user.phone).phoneVerified = w.user.phone.phoneVerified := by
    unfold PhoneColumns.flush
    rw [hverified]
    exact flushed_self
  have hcode : (loaded.flush assigned w.user.phone).codeHash = w.user.phone.codeHash := by
    unfold PhoneColumns.flush
    rw [hhash]
    exact flushed_self
  have hissued : (w.commit loaded assigned).issued = w.issued := if_pos hhash
  refine ⟨fun codeHash hstored => hw.drawn codeHash (hcode.symm.trans hstored), fun codeHash hstored => ?_, fun htrue => ?_⟩
  · obtain ⟨hfalse, hsome, hsent⟩ := hw.code codeHash (hcode.symm.trans hstored)
    refine ⟨hflag.trans hfalse, fun hnone => hsome (hphone.symm.trans hnone), ?_⟩
    unfold PhoneWorld.sentTo
    rw [hissued]
    exact hsent.trans hphone.symm
  · obtain ⟨phoneNumber, hstored, haccepted⟩ := hw.truthful (hflag.symm.trans htrue)
    exact ⟨phoneNumber, hphone.trans hstored, haccepted⟩

theorem phoneInv_consume {codeHash : String} {now : Instant} (hw : PhoneInv w) (htakes : w.Takes codeHash now) :
    PhoneInv { w with
      user := { w.user with phone := w.user.phone.consumed now }
      accepted := w.sentTo codeHash :: w.accepted } := by
  obtain ⟨-, hsome, hsent⟩ := hw.code codeHash htakes.1
  obtain ⟨phoneNumber, hnumber⟩ := Option.ne_none_iff_exists'.1 hsome
  refine ⟨?_, ?_, fun _ => ⟨phoneNumber, hnumber, ?_⟩⟩
  · rintro _ ⟨⟩
  · rintro _ ⟨⟩
  · show some (w.sentTo codeHash) = _
    rw [hsent, hnumber]

/-- **The step lemma**: a commit in full, and anything else, keeps the invariant, and a delete leaves no code. -/
theorem phoneInv_apply (hw : PhoneInv w) (hg : g.Borne w) (hmay : g.May ctx tag ev.op) (hfull : InFull w tag ev) :
    PhoneInv (w.apply ctx i ev) := by
  obtain ⟨op, out, took, hok⟩ := ev
  cases op with
  | currentUser =>
    rcases out with e | user
    · exact hw
    · exact ⟨hw.drawn, hw.code, hw.truthful⟩
  | generateCode =>
    rcases out with e | code
    · exact hw
    · exact ⟨fun codeHash h => List.mem_cons_of_mem _ (hw.drawn codeHash h), hw.code, hw.truthful⟩
  | commit loaded assigned =>
    cases took with
    | true =>
      rcases hmay with ⟨-, hissues | hmarks⟩ | ⟨htag, rfl⟩
      · exact phoneInv_issue hg hissues fun hne => hfull (.inr hne)
      · exact phoneInv_mark hw hmarks
      · exact (phoneInv_delete (hfull (.inl htag))).1
    | false => exact hw
  | compareDigest candidate codeHash =>
    rcases out with e | (_ | _)
    · exact hw
    · exact ⟨hw.drawn, hw.code, hw.truthful⟩
    · exact hw
  | countGuess =>
    cases took with
    | true => exact ⟨hw.drawn, hw.code, hw.truthful⟩
    | false => exact hw
  | consume codeHash now =>
    cases took with
    | true =>
      show PhoneInv (if w.Takes codeHash now then { w with
          user := { w.user with phone := w.user.phone.consumed now }
          accepted := w.sentTo codeHash :: w.accepted }
        else w)
      split_ifs with htakes
      · exact phoneInv_consume hw htakes
      · exact hw
    | false => exact hw
  | _ => exact hw

theorem id_apply : (w.apply ctx i ev).user.id = w.user.id := by
  unfold PhoneWorld.apply
  split
  case h_6 => split_ifs <;> rfl
  all_goals rfl

theorem minted_subset : w.minted ⊆ (w.apply ctx i ev).minted := by
  unfold PhoneWorld.apply
  split
  case h_2 => exact List.subset_cons_self _ _
  case h_6 => split_ifs <;> exact List.Subset.refl _
  all_goals exact List.Subset.refl _

theorem grip_other (hg : g.Borne w) : g.Borne (w.apply ctx i ev) where
  row row hrow := ⟨(hg.row row hrow).1.trans id_apply.symm, fun codeHash h => minted_subset ((hg.row row hrow).2 codeHash h)⟩
  drawn codeHash h := ⟨minted_subset (hg.drawn codeHash h).1, (hg.drawn codeHash h).2⟩

theorem grip_apply (hw : PhoneInv w) (hg : g.Borne w) (hall : w.Allowed ctx ev) :
    (g.step ctx ev).Borne (w.apply ctx i ev) := by
  have hkept : g.Borne (w.apply ctx i ev) := grip_other hg
  obtain ⟨op, out, took, hok⟩ := ev
  cases op with
  | currentUser =>
    rcases out with e | user
    · exact hkept
    · obtain rfl : user = w.user := hall
      refine ⟨?_, fun _ h => by cases h⟩
      rintro _ ⟨⟩
      exact ⟨rfl, hw.drawn⟩
  | generateCode =>
    rcases out with e | code
    · exact hkept
    · refine ⟨hkept.row, ?_⟩
      intro codeHash hdrawn
      obtain ⟨row, hrow, rfl⟩ := Option.map_eq_some_iff.1 hdrawn
      obtain ⟨hid, hhash⟩ := hg.row row hrow
      rw [hid]
      refine ⟨List.mem_cons_self, fun other hother heq => ?_⟩
      exact hall ((hg.row other hother).2 _ heq)
  | commit loaded assigned => exact ⟨hkept.row, fun _ h => by cases h⟩
  | compareDigest candidate codeHash =>
    rcases out with e | (_ | _)
    · exact hkept
    · exact ⟨hkept.row, hkept.drawn⟩
    · exact hkept
  | countGuess => exact ⟨hkept.row, hkept.drawn⟩
  | _ => exact hkept

theorem compares_of_allowed (hall : w.Allowed ctx ev) : Compares ev := by
  obtain ⟨op, out, took, hok⟩ := ev
  cases op with
  | compareDigest candidate codeHash => exact hall
  | _ => trivial

variable {kinds : PhoneRequest → Prop}

theorem grip_start : PhoneGrip.Borne w {} := by
  refine ⟨?_, ?_⟩ <;> rintro _ ⟨⟩

/-- **The number, the flag and the digest** stay together while commits write in full. -/
theorem verified_watched : (phoneSystem ctx kinds).Watched (phoneMonitor ctx) {} PhoneInv (fun w _ _ g => g.Borne w)
    fun c _ tag ev => InFull c.world tag ev where
  start := by
    rintro w w' i tag p hw hspawn
    cases tag with
    | request request =>
      obtain ⟨-, rfl, rfl⟩ := hspawn
      exact ⟨hw, ⟨grip_start, wp_phoneRequest request⟩, fun _ _ _ _ hg => hg⟩
    | tick clock =>
      obtain ⟨rfl, -, rfl⟩ := hspawn
      exact ⟨⟨hw.drawn, hw.code, hw.truthful⟩, ⟨grip_start, trivial⟩, fun _ _ _ _ hg => ⟨hg.row, hg.drawn⟩⟩
  act := by
    intro c i tag ev g hw hg hmay hall hfull
    exact ⟨phoneInv_apply hw hg hmay hfull, compares_of_allowed hall, grip_apply hw hg hall⟩
  other := by
    intro c i tag ev g hw hg hmay hall _ j tag' g' q hji _ hg'
    exact grip_other hg'

abbrev PhoneConfig (ctx : PhoneContext) (kinds : PhoneRequest → Prop) : Type := (phoneSystem ctx kinds).Config

/-- Commits write in full. -/
def FullStep (c : PhoneConfig ctx kinds) (l : (phoneSystem ctx kinds).Label) (_ : PhoneConfig ctx kinds) : Prop :=
  match l with
  | .act _ tag ev => InFull c.world tag ev
  | _ => True

def CommitsDelete (tag : PhoneTag) : Event PhoneSig → Prop
  | ⟨.commit _ _, _, true, _⟩ => tag.deletes = true
  | _ => False

/-- A delete that has committed has left no code. -/
def LeavesNoCode (w' : PhoneWorld) (tag : PhoneTag) (ev : Event PhoneSig) : Prop :=
  CommitsDelete tag ev → w'.user.phone.codeHash = none

def NumberVerified (_ : PhoneConfig ctx kinds) (l : (phoneSystem ctx kinds).Label) (c' : PhoneConfig ctx kinds) : Prop :=
  PhoneWorld.Truthful c'.world ∧ match l with
    | .act _ tag ev => LeavesNoCode c'.world tag ev
    | _ => True

theorem leavesNoCode_apply (hmay : g.May ctx tag ev.op) (hfull : InFull w tag ev) :
    LeavesNoCode (w.apply ctx i ev) tag ev := by
  intro hcommits
  obtain ⟨op, out, took, hok⟩ := ev
  cases op with
  | commit loaded assigned =>
    cases took with
    | true =>
      have htag : tag.deletes = true := hcommits
      rcases hmay with ⟨hissues, -⟩ | ⟨-, rfl⟩
      · exact absurd hissues (not_issues_of_deletes htag)
      · exact (phoneInv_delete (hfull (.inl htag))).2
    | false => exact hcommits.elim
  | _ => exact hcommits.elim

/-- No number, no code, and no code drawn or accepted. -/
structure NoNumber (w : PhoneWorld) : Prop where
  phone : w.user.phone = {}
  minted : w.minted = []
  issued : w.issued = []
  accepted : w.accepted = []

theorem phoneInv_noNumber (h : NoNumber w) : PhoneInv w := by
  have hhash : w.user.phone.codeHash = none := by rw [h.phone]
  refine ⟨fun _ hstored => ?_, fun _ hstored => ?_, fun htrue => ?_⟩
  · rw [hhash] at hstored
    cases hstored
  · rw [hhash] at hstored
    cases hstored
  · rw [h.phone] at htrue
    cases htrue

/-- **Commits in full**: where a delete and the commit of a new code write the number, the flag and the digest that they
assign, a verified number is the one that the code accepted last was sent to, and a delete leaves no code. -/
theorem verified_in_full {c : PhoneConfig ctx fun _ => True}
    {tr : List ((phoneSystem ctx fun _ => True).Label × PhoneConfig ctx fun _ => True)} (hstart : NoNumber c.world)
    (hfree : ∀ i, c.threads i = none) (hs : (phoneSystem ctx fun _ => True).Steps c tr) (hfull : Along FullStep c tr) :
    Along NumberVerified c tr := by
  have hP := preserved_of_watched (@verified_watched ctx (fun _ => True))
  have hI := watched_start (M := phoneMonitor ctx) (V := fun w _ _ g => PhoneGrip.Borne w g) hfree
    (phoneInv_noNumber hstart)
  refine along_of_step (fun c l c' hI hst hl => ?_) hI hs hfull
  have hact : ActOnly (fun c _ tag ev => InFull c.world tag ev) c l c' := by
    cases l with
    | act i tag ev => exact hl
    | _ => trivial
  have hI' := inv_step hP hI hst hact
  refine ⟨hI', hI'.1.truthful, ?_⟩
  cases hst with
  | act hrun hall =>
    obtain ⟨g, -, hmay⟩ := watched_call hI hrun
    exact leavesNoCode_apply hmay hl
  | _ => trivial

end Verified

/-! ## The ceiling of guesses -/

section Guesses

variable {digest : String}

/-- One code has been issued, and the guesses compared against it are those counted and those that are not yet. -/
structure GuessInv (digest : String) (w : PhoneWorld) : Prop where
  compared : ∀ codeHash ∈ w.compared, codeHash = digest
  code : ∀ codeHash ∈ w.user.phone.codeHash, codeHash = digest ∧ w.user.phone.attempts = w.counted
  total : w.compared.length = w.counted + w.pending.length

/-- What a request that verifies knows: with what it has missed, the attempts that it has read are the guesses compared, and
with those counted since, the guesses counted. -/
structure PhoneGrip.Knows (digest : String) (w : PhoneWorld) (i : ℕ) (tag : PhoneTag) (g : PhoneGrip) : Prop where
  verifies : tag.issues = false ∧ tag.deletes = false
  read : ∀ row ∈ g.row, w.seen i = some row ∧ ∀ codeHash ∈ row.phone.codeHash, codeHash = digest ∧
    row.phone.attempts + w.unseen i = w.compared.length ∧ row.phone.attempts + w.since i = w.counted
  wrong : g.wrong = true → i ∈ w.pending

variable {g : PhoneGrip} {ev : Event PhoneSig}

theorem guessInv_apply (hw : GuessInv digest w) (hne : digest ≠ "") (hg : g.Knows digest w i tag)
    (hmay : g.May ctx tag ev.op) : GuessInv digest (w.apply ctx i ev) := by
  obtain ⟨op, out, took, hok⟩ := ev
  cases op with
  | currentUser =>
    rcases out with e | user
    · exact hw
    · exact ⟨hw.compared, hw.code, hw.total⟩
  | generateCode =>
    rcases out with e | code
    · exact hw
    · exact ⟨hw.compared, hw.code, hw.total⟩
  | commit loaded assigned =>
    rcases hmay with ⟨hissues, -⟩ | ⟨hdeletes, -⟩
    · rw [hg.verifies.1] at hissues
      cases hissues
    · rw [hg.verifies.2] at hdeletes
      cases hdeletes
  | compareDigest candidate codeHash =>
    obtain ⟨row, hrow, hhash, -⟩ := hmay
    rcases out with e | (_ | _)
    · exact hw
    · refine ⟨?_, hw.code, ?_⟩
      · intro other hother
        rcases List.mem_cons.1 hother with rfl | hold
        · exact ((hg.read row hrow).2 other hhash).1
        · exact hw.compared other hold
      · show w.compared.length + 1 = w.counted + (w.pending.length + 1)
        rw [hw.total]
        omega
    · exact hw
  | countGuess =>
    have hpending : i ∈ w.pending := by
      rcases hmay with hwrong | ⟨row, hrow, hempty⟩
      · exact hg.wrong hwrong
      · exact absurd ((hg.read row hrow).2 _ hempty).1.symm hne
    cases took with
    | true =>
      refine ⟨hw.compared, fun codeHash h => ?_, ?_⟩
      · obtain ⟨hdigest, hattempts⟩ := hw.code codeHash h
        exact ⟨hdigest, congrArg (· + 1) hattempts⟩
      · show w.compared.length = w.counted + 1 + (w.pending.erase i).length
        have hpos : 0 < w.pending.length := List.length_pos_of_mem hpending
        rw [hw.total, List.length_erase_of_mem hpending]
        omega
    | false => exact hw
  | consume codeHash now =>
    cases took with
    | true =>
      show GuessInv digest (if w.Takes codeHash now then { w with
          user := { w.user with phone := w.user.phone.consumed now }
          accepted := w.sentTo codeHash :: w.accepted }
        else w)
      split_ifs with htakes
      · refine ⟨hw.compared, ?_, hw.total⟩
        rintro _ ⟨⟩
      · exact hw
    | false => exact hw
  | _ => exact hw

theorem knows_of_counts {w' : PhoneWorld} {tag' : PhoneTag} {g' : PhoneGrip} {m n : ℕ} (hg : g'.Knows digest w j tag')
    (hseen : w'.seen j = w.seen j) (hcompared : w'.compared.length = w.compared.length + m)
    (hunseen : w'.unseen j = w.unseen j + m) (hcounted : w'.counted = w.counted + n) (hsince : w'.since j = w.since j + n)
    (hpending : g'.wrong = true → j ∈ w.pending → j ∈ w'.pending) : g'.Knows digest w' j tag' where
  verifies := hg.verifies
  read row hrow := by
    obtain ⟨hread, hcode⟩ := hg.read row hrow
    refine ⟨hseen.trans hread, fun codeHash h => ?_⟩
    obtain ⟨hdigest, hmissed, hlater⟩ := hcode codeHash h
    rw [hunseen, hcompared, hsince, hcounted]
    exact ⟨hdigest, by omega, by omega⟩
  wrong h := hpending h (hg.wrong h)

theorem knows_other {tag' : PhoneTag} {g' : PhoneGrip} (hg : g.Knows digest w i tag) (hmay : g.May ctx tag ev.op)
    (hji : j ≠ i) (hg' : g'.Knows digest w j tag') : g'.Knows digest (w.apply ctx i ev) j tag' := by
  have hsame : g'.Knows digest w j tag' := hg'
  obtain ⟨op, out, took, hok⟩ := ev
  cases op with
  | currentUser =>
    rcases out with e | user
    · exact hsame
    · exact knows_of_counts (m := 0) (n := 0) hg' (Function.update_of_ne hji _ _) rfl (Function.update_of_ne hji _ _) rfl
        (Function.update_of_ne hji _ _) fun _ h => h
  | generateCode =>
    rcases out with e | code
    · exact hsame
    · exact knows_of_counts (m := 0) (n := 0) hg' rfl rfl rfl rfl rfl fun _ h => h
  | commit loaded assigned =>
    rcases hmay with ⟨hissues, -⟩ | ⟨hdeletes, -⟩
    · rw [hg.verifies.1] at hissues
      cases hissues
    · rw [hg.verifies.2] at hdeletes
      cases hdeletes
  | compareDigest candidate codeHash =>
    rcases out with e | (_ | _)
    · exact hsame
    · exact knows_of_counts (m := 1) (n := 0) hg' rfl rfl rfl rfl rfl fun _ h => List.mem_cons_of_mem _ h
    · exact hsame
  | countGuess =>
    cases took with
    | true => exact knows_of_counts (m := 0) (n := 1) hg' rfl rfl rfl rfl rfl fun _ h => (List.mem_erase_of_ne hji).2 h
    | false => exact hsame
  | consume codeHash now =>
    cases took with
    | true =>
      show g'.Knows digest (if w.Takes codeHash now then { w with
          user := { w.user with phone := w.user.phone.consumed now }
          accepted := w.sentTo codeHash :: w.accepted }
        else w) j tag'
      split_ifs
      · exact knows_of_counts (m := 0) (n := 0) hg' rfl rfl rfl rfl rfl fun _ h => h
      · exact hsame
    | false => exact hsame
  | _ => exact hsame

theorem knows_apply (hw : GuessInv digest w) (hg : g.Knows digest w i tag) (hmay : g.May ctx tag ev.op)
    (hall : w.Allowed ctx ev) : (g.step ctx ev).Knows digest (w.apply ctx i ev) i tag := by
  obtain ⟨op, out, took, hok⟩ := ev
  cases op with
  | currentUser =>
    rcases out with e | user
    · exact hg
    · obtain rfl : user = w.user := hall
      refine ⟨hg.verifies, ?_, hg.wrong⟩
      rintro _ ⟨⟩
      refine ⟨Function.update_self _ _ _, fun codeHash h => ?_⟩
      obtain ⟨hdigest, hattempts⟩ := hw.code codeHash h
      refine ⟨hdigest, ?_, ?_⟩
      · show w.user.phone.attempts + Function.update w.unseen i w.pending.length i = w.compared.length
        rw [Function.update_self, hattempts, hw.total]
      · show w.user.phone.attempts + Function.update w.since i 0 i = w.counted
        rw [Function.update_self, hattempts]
        rfl
  | generateCode =>
    rcases out with e | code
    · exact hg
    · exact ⟨hg.verifies, hg.read, hg.wrong⟩
  | commit loaded assigned =>
    rcases hmay with ⟨hissues, -⟩ | ⟨hdeletes, -⟩
    · rw [hg.verifies.1] at hissues
      cases hissues
    · rw [hg.verifies.2] at hdeletes
      cases hdeletes
  | compareDigest candidate codeHash =>
    rcases out with e | (_ | _)
    · exact hg
    · have hread := @knows_of_counts _ _ _ (w.apply ctx i ⟨.compareDigest candidate codeHash, .ok false, took, hok⟩) _ _ 1 0
        hg rfl rfl rfl rfl rfl fun _ h => List.mem_cons_of_mem _ h
      exact ⟨hread.verifies, hread.read, fun _ => List.mem_cons_self⟩
    · exact hg
  | countGuess =>
    cases took with
    | true =>
      have hdone : PhoneGrip.Knows digest w i tag { g with wrong := false } := ⟨hg.verifies, hg.read, fun h => by cases h⟩
      exact knows_of_counts (m := 0) (n := 1) hdone rfl rfl rfl rfl rfl fun h => by cases h
    | false => exact ⟨hg.verifies, hg.read, fun h => by cases h⟩
  | consume codeHash now =>
    cases took with
    | true =>
      show g.Knows digest (if w.Takes codeHash now then { w with
          user := { w.user with phone := w.user.phone.consumed now }
          accepted := w.sentTo codeHash :: w.accepted }
        else w) i tag
      split_ifs
      · exact knows_of_counts (m := 0) (n := 0) hg rfl rfl rfl rfl rfl fun _ h => h
      · exact hg
    | false => exact hg
  | _ => exact hg

def PhoneRequest.Verifies : PhoneRequest → Prop
  | .verify _ => True
  | _ => False

/-- **What requests know of the guesses** is kept by every step. -/
theorem guesses_watched (hne : digest ≠ "") : (phoneSystem ctx PhoneRequest.Verifies).Watched (phoneMonitor ctx) {}
    (GuessInv digest) (fun w i tag g => g.Knows digest w i tag) fun _ _ _ _ => True where
  start := by
    rintro w w' i tag p hw hspawn
    cases tag with
    | request request =>
      obtain ⟨hkind, rfl, rfl⟩ := hspawn
      have hverifies : (PhoneTag.request request).issues = false ∧ (PhoneTag.request request).deletes = false := by
        cases request with
        | verify code => exact ⟨rfl, rfl⟩
        | _ => exact hkind.elim
      refine ⟨hw, ⟨⟨hverifies, ?_, fun h => by cases h⟩, wp_phoneRequest request⟩, fun _ _ _ _ hg => hg⟩
      rintro _ ⟨⟩
    | tick clock =>
      obtain ⟨rfl, -, rfl⟩ := hspawn
      refine ⟨⟨hw.compared, hw.code, hw.total⟩, ⟨⟨⟨rfl, rfl⟩, ?_, fun h => by cases h⟩, trivial⟩, ?_⟩
      · rintro _ ⟨⟩
      · exact fun j tag' g' _ hg => ⟨hg.verifies, hg.read, hg.wrong⟩
  act := by
    intro c i tag ev g hw hg hmay hall _
    exact ⟨guessInv_apply hw hne hg hmay, compares_of_allowed hall, knows_apply hw hg hmay hall⟩
  other := by
    intro c i tag ev g hw hg hmay hall _ j tag' g' q hji _ hg'
    exact knows_other hg hmay hji hg'

/-- The wrong codes compared are no more than the ceiling. -/
def Bounded (ctx : PhoneContext) (digest : String) (w : PhoneWorld) : Prop := w.compared.count digest ≤ ctx.maxAttempts

/-- A code is taken only while fewer guesses than the ceiling have been counted. -/
def TakenBelow (ctx : PhoneContext) (w w' : PhoneWorld) : Prop := w'.accepted = w.accepted ∨ w.counted < ctx.maxAttempts

/-- The guesses that a request has missed are fewer than its read leaves: those it compares beside, and where it takes the
code, those counted since. -/
def Fits (ctx : PhoneContext) (w : PhoneWorld) (i : ℕ) : Event PhoneSig → Prop
  | ⟨.compareDigest _ _, .ok false, _, _⟩ => ∀ row ∈ w.seen i, w.unseen i < ctx.maxAttempts - row.phone.attempts
  | ⟨.consume codeHash now, _, true, _⟩ => w.Takes codeHash now →
      ∀ row ∈ w.seen i, w.since i < ctx.maxAttempts - row.phone.attempts
  | _ => True

abbrev GuessConfig (ctx : PhoneContext) : Type := PhoneConfig ctx PhoneRequest.Verifies

def FitsStep (c : GuessConfig ctx) (l : (phoneSystem ctx PhoneRequest.Verifies).Label) (_ : GuessConfig ctx) : Prop :=
  match l with
  | .act i _ ev => Fits ctx c.world i ev
  | _ => True

theorem bounded_iff (hw : GuessInv digest w) : Bounded ctx digest w ↔ w.compared.length ≤ ctx.maxAttempts := by
  unfold Bounded
  rw [List.count_eq_length.2 fun codeHash h => (hw.compared codeHash h).symm]

/-- What one exchange makes of the ceiling. -/
theorem bounded_apply_iff (hw : GuessInv digest w) (hw' : GuessInv digest (w.apply ctx i ev)) (hg : g.Knows digest w i tag)
    (hmay : g.May ctx tag ev.op) (hbounded : Bounded ctx digest w) :
    Bounded ctx digest (w.apply ctx i ev) ∧ TakenBelow ctx w (w.apply ctx i ev) ↔ Fits ctx w i ev := by
  rw [bounded_iff hw']
  rw [bounded_iff hw] at hbounded
  obtain ⟨op, out, took, hok⟩ := ev
  cases op with
  | currentUser => rcases out with e | user <;> exact ⟨fun _ => trivial, fun _ => ⟨hbounded, .inl rfl⟩⟩
  | generateCode => rcases out with e | code <;> exact ⟨fun _ => trivial, fun _ => ⟨hbounded, .inl rfl⟩⟩
  | commit loaded assigned => cases took <;> exact ⟨fun _ => trivial, fun _ => ⟨hbounded, .inl rfl⟩⟩
  | compareDigest candidate codeHash =>
    obtain ⟨row, hrow, hhash, hleft⟩ := hmay
    obtain ⟨hseen, hknown⟩ := hg.read row hrow
    obtain ⟨-, hmissed, -⟩ := hknown codeHash hhash
    rcases out with e | (_ | _)
    · exact ⟨fun _ => trivial, fun _ => ⟨hbounded, .inl rfl⟩⟩
    · constructor
      · rintro ⟨hnext, -⟩ row' hrow'
        obtain rfl : row = row' := Option.some.inj (hseen.symm.trans hrow')
        have hlt : w.compared.length + 1 ≤ ctx.maxAttempts := hnext
        omega
      · intro hfits
        have hlt : w.unseen i < ctx.maxAttempts - row.phone.attempts := hfits row hseen
        refine ⟨?_, .inl rfl⟩
        show w.compared.length + 1 ≤ ctx.maxAttempts
        omega
    · exact ⟨fun _ => trivial, fun _ => ⟨hbounded, .inl rfl⟩⟩
  | countGuess => cases took <;> exact ⟨fun _ => trivial, fun _ => ⟨hbounded, .inl rfl⟩⟩
  | consume codeHash now =>
    obtain ⟨row, hrow, hhash, hleft⟩ := hmay
    obtain ⟨hseen, hknown⟩ := hg.read row hrow
    obtain ⟨-, -, hlater⟩ := hknown codeHash hhash
    cases took with
    | true =>
      by_cases htakes : w.Takes codeHash now
      · have hnext : w.apply ctx i ⟨.consume codeHash now, out, true, hok⟩ = { w with
            user := { w.user with phone := w.user.phone.consumed now }
            accepted := w.sentTo codeHash :: w.accepted } := if_pos htakes
        rw [hnext]
        constructor
        · rintro ⟨-, hbelow⟩ - row' hrow'
          obtain rfl : row = row' := Option.some.inj (hseen.symm.trans hrow')
          rcases hbelow with hsame | hlt
          · exact absurd hsame (List.cons_ne_self _ _)
          · omega
        · intro hfits
          have hlt : w.since i < ctx.maxAttempts - row.phone.attempts := hfits htakes row hseen
          exact ⟨hbounded, .inr (by omega)⟩
      · have hnext : w.apply ctx i ⟨.consume codeHash now, out, true, hok⟩ = w := if_neg htakes
        rw [hnext]
        exact ⟨fun _ h => absurd h htakes, fun _ => ⟨hbounded, .inl rfl⟩⟩
    | false => exact ⟨fun _ => trivial, fun _ => ⟨hbounded, .inl rfl⟩⟩
  | _ => exact ⟨fun _ => trivial, fun _ => ⟨hbounded, .inl rfl⟩⟩

/-- A code has been issued, and no guess has been made at it. -/
structure CodeIssued (digest : String) (w : PhoneWorld) : Prop where
  nonempty : digest ≠ ""
  code : w.user.phone.codeHash = some digest
  attempts : w.user.phone.attempts = 0
  compared : w.compared = []
  counted : w.counted = 0
  pending : w.pending = []

theorem guessInv_issued (h : CodeIssued digest w) : GuessInv digest w := by
  refine ⟨?_, fun codeHash hstored => ⟨?_, ?_⟩, ?_⟩
  · rw [h.compared]
    rintro _ ⟨⟩
  · exact (Option.some.inj (h.code.symm.trans hstored)).symm
  · rw [h.attempts, h.counted]
  · rw [h.compared, h.counted, h.pending]
    rfl

/-- **The ceiling of guesses**: among requests that verify one code, no more wrong codes are compared with it than the ceiling
and none is taken once so many were counted, exactly if every request misses fewer guesses than its read leaves. -/
theorem guesses_bounded {c : GuessConfig ctx}
    {tr : List ((phoneSystem ctx PhoneRequest.Verifies).Label × GuessConfig ctx)} (hissued : CodeIssued digest c.world)
    (hfree : ∀ i, c.threads i = none) (hs : (phoneSystem ctx PhoneRequest.Verifies).Steps c tr) :
    Along (fun c _ c' => Bounded ctx digest c'.world ∧ TakenBelow ctx c.world c'.world) c tr ↔ Along FitsStep c tr := by
  have hwatched := @guesses_watched ctx _ hissued.nonempty
  have hI := watched_start (M := phoneMonitor ctx) (V := fun w i tag g => PhoneGrip.Knows digest w i tag g) hfree
    (guessInv_issued hissued)
  have hbounded : Bounded ctx digest c.world := by
    unfold Bounded
    rw [hissued.compared]
    exact Nat.zero_le _
  refine along_iff_of_step (K := fun c : GuessConfig ctx => Bounded ctx digest c.world)
    (ψ := fun c _ c' => TakenBelow ctx c.world c'.world)
    (fun c l c' hI hst => watched_step hwatched hI hst) (fun c l c' hI hk hst => ?_) hI hbounded hs
  have hI' := watched_step hwatched hI hst
  cases hst with
  | start hidle hspawn =>
    rename_i i tag p w'
    have hsame : w'.compared = PhoneWorld.compared c.world ∧ w'.accepted = PhoneWorld.accepted c.world := by
      cases tag with
      | request request =>
        obtain ⟨-, -, rfl⟩ := hspawn
        exact ⟨rfl, rfl⟩
      | tick clock =>
        obtain ⟨-, -, rfl⟩ := hspawn
        exact ⟨rfl, rfl⟩
    refine ⟨fun _ => trivial, fun _ => ⟨?_, .inl hsame.2⟩⟩
    show Bounded ctx digest w'
    unfold Bounded
    rw [hsame.1]
    exact hk
  | act hrun hall =>
    obtain ⟨g, hg, hmay⟩ := watched_call hI hrun
    exact bounded_apply_iff hI.1 hI'.1 hg hmay hk
  | exit => exact ⟨fun _ => trivial, fun _ => ⟨hk, .inl rfl⟩⟩

end Guesses

/-! ## Concrete runs -/

section Concrete

/-- Codes with the HMAC-SHA256 of `7:code` under the key `secret-key`. -/
def codeDigests : List (String × String) := [
  ("483920", "73e01a7f5ad4a105389ff1e50c9ea71afad5cb73dfb67abc09ad9f5fa7a48c94"),
  ("483921", "d33965e9366e46b6c9b8ef0107ac13e32b5ba607ce5f521a52749b17bb464c51"),
  ("483922", "ba75b38d664fcb90cb4d9674a97dc1dc355601e624b387d96914ccc819352662"),
  ("000000", "8a58c1b564db8934396e2dd9631276084fd660dfbe8d6fca298b0556616d6b70")]

def fiveGuesses : PhoneContext where
  hashCode _ code := (codeDigests.lookup code).getD ""
  decimal := Char.isDigit
  ttl := 600000000
  cooldown := 60000000
  maxAttempts := 5

/-- Every statement answers from the row, every message is sent, and no other account has the number. -/
def phoneReply (w : PhoneWorld) : (op : PhoneOp) → op.Ans
  | .currentUser => w.user
  | .now => w.clock
  | .conflict _ _ => none
  | .generateCode => (codeDigests[w.minted.length]?.map (·.1)).getD ""
  | .commit _ _ => ()
  | .send _ _ => ()
  | .compareDigest candidate codeHash => decide (candidate = codeHash)
  | .countGuess => ()
  | .consume codeHash now => decide (w.Takes codeHash now)

def phoneCheck (w : PhoneWorld) : Event PhoneSig → Bool
  | ⟨_, .error _, _, _⟩ => false
  | ⟨.currentUser, .ok user, _, _⟩ => user = w.user
  | ⟨.now, .ok now, _, _⟩ => now = w.clock
  | ⟨.generateCode, .ok code, _, _⟩ => fiveGuesses.hashCode w.user.id code ∉ w.minted
  | ⟨.compareDigest candidate codeHash, .ok same, _, _⟩ => same = decide (candidate = codeHash)
  | ⟨.consume codeHash now, .ok found, _, _⟩ => found = decide (w.Takes codeHash now)
  | _ => true

theorem allowed_of_phoneCheck {ev : Event PhoneSig} (h : phoneCheck w ev = true) : w.Allowed fiveGuesses ev := by
  obtain ⟨op, out, took, hok⟩ := ev
  rcases out with e | a
  · cases op <;> cases h
  · cases op with
    | currentUser =>
      have huser : a = w.user := of_decide_eq_true h
      exact huser
    | now =>
      have hnow : a = w.clock := of_decide_eq_true h
      exact hnow
    | generateCode =>
      have hnew : fiveGuesses.hashCode w.user.id a ∉ w.minted := of_decide_eq_true h
      exact hnew
    | compareDigest candidate codeHash =>
      have hsame : a = decide (candidate = codeHash) := of_decide_eq_true h
      exact congrArg Except.ok hsame
    | consume codeHash now =>
      have hfound : a = decide (w.Takes codeHash now) := of_decide_eq_true h
      exact hfound
    | _ => trivial

variable {kinds : PhoneRequest → Prop}

def phoneDriver (kinds : PhoneRequest → Prop) : (phoneSystem fiveGuesses kinds).Driver where
  reply w op := .ok (phoneReply w op)
  check w _ _ ev := phoneCheck w ev
  sound h := allowed_of_phoneCheck h

def sends {request : PhoneRequest} (hkind : kinds request) (i : ℕ) : (phoneSystem fiveGuesses kinds).Starter i where
  start w := some (.request request, request.program fiveGuesses, w)
  sound h := by
    cases h
    exact ⟨hkind, rfl, rfl⟩

def waits (microseconds : ℕ) (i : ℕ) : (phoneSystem fiveGuesses kinds).Starter i where
  start w := some (.tick (PhoneWorld.clock w + microseconds), .ret (), { w with clock := PhoneWorld.clock w + microseconds })
  sound h := by
    cases h
    exact ⟨rfl, Int.le_add_of_nonneg_right (Int.natCast_nonneg _), rfl⟩

def goes (i : ℕ) : ℕ → List (phoneSystem fiveGuesses kinds).Move
  | 0 => []
  | n + 1 => .go i :: goes i n

def account (phone : PhoneColumns) : PhoneWorld where
  user := { id := 7, username := "ada", email := "ada@example.com", hashedPassword := "argon2", phone }

/-! ### Guesses -/

section Guesses

/-- The digest of the code that was sent. -/
def sentHash : String := "73e01a7f5ad4a105389ff1e50c9ea71afad5cb73dfb67abc09ad9f5fa7a48c94"

def oneCode : PhoneColumns where
  phoneNumber := some "+14155552671"
  codeHash := some sentHash
  sentAt := some 0
  expiresAt := some 600000000

def guessing : GuessConfig fiveGuesses := ⟨account oneCode, fun _ => none⟩

theorem codeIssued_guessing : CodeIssued sentHash guessing.world := ⟨by decide, rfl, rfl, rfl, rfl, rfl⟩

def guess (code : String) (i : ℕ) : (phoneSystem fiveGuesses PhoneRequest.Verifies).Starter i :=
  @sends _ (.verify code) trivial i

instance decidableFits (w : PhoneWorld) (i : ℕ) : ∀ ev : Event PhoneSig, Decidable (Fits fiveGuesses w i ev)
  | ⟨.compareDigest _ _, .ok false, _, _⟩ =>
    inferInstanceAs (Decidable (∀ row ∈ w.seen i, w.unseen i < fiveGuesses.maxAttempts - row.phone.attempts))
  | ⟨.consume codeHash now, _, true, _⟩ =>
    inferInstanceAs (Decidable (w.Takes codeHash now →
      ∀ row ∈ w.seen i, w.since i < fiveGuesses.maxAttempts - row.phone.attempts))
  | ⟨.compareDigest _ _, .ok true, _, _⟩ | ⟨.compareDigest _ _, .error _, _, _⟩ | ⟨.consume _ _, _, false, _⟩
  | ⟨.currentUser, _, _, _⟩ | ⟨.now, _, _, _⟩ | ⟨.conflict _ _, _, _, _⟩ | ⟨.generateCode, _, _, _⟩
  | ⟨.commit _ _, _, _, _⟩ | ⟨.send _ _, _, _, _⟩ | ⟨.countGuess, _, _, _⟩ => isTrue trivial

instance decidableFitsStep (c : GuessConfig fiveGuesses) :
    ∀ (l : (phoneSystem fiveGuesses PhoneRequest.Verifies).Label) (c' : GuessConfig fiveGuesses), Decidable (FitsStep c l c')
  | .act i _ ev, _ => decidableFits c.world i ev
  | .start _ _, _ | .exit _, _ => isTrue trivial

/-- A wrong guess beside a right one. -/
def fewGuesses : List ((phoneSystem fiveGuesses PhoneRequest.Verifies).Label × GuessConfig fiveGuesses) :=
  Sys.drive (phoneDriver PhoneRequest.Verifies) guessing
    (.start 0 (guess "000000" 0) :: .start 1 (guess "483920" 1) :: goes 0 3 ++ goes 1 4 ++ goes 0 1)

theorem guesses_bounded_few : fewGuesses.length = 10 ∧
    Along (fun c _ c' => Bounded fiveGuesses sentHash c'.world ∧ TakenBelow fiveGuesses c.world c'.world) guessing
      fewGuesses := by
  refine ⟨by decide +kernel, ?_⟩
  have hfits : Along FitsStep guessing fewGuesses :=
    @of_decide_eq_true _ (@decidableAlong _ _ _ decidableFitsStep _ _) (by decide +kernel)
  exact (guesses_bounded codeIssued_guessing (fun _ => rfl) (steps_drive _ _ _)).2 hfits

def starts (n : ℕ) : List (phoneSystem fiveGuesses PhoneRequest.Verifies).Move :=
  (List.range n).map fun i => .start i (guess "000000" i)

/-- Six requests read the row before any of them counts its guess. -/
def sixGuesses : List ((phoneSystem fiveGuesses PhoneRequest.Verifies).Label × GuessConfig fiveGuesses) :=
  Sys.drive (phoneDriver PhoneRequest.Verifies) guessing
    (starts 6 ++ (List.range 6).flatMap (fun i => goes i 2) ++ (List.range 6).flatMap fun i => goes i 1)

/-- **Six guesses at once**: six wrong codes are compared, where five are allowed. -/
theorem six_compared : CodeIssued sentHash guessing.world ∧
    (phoneSystem fiveGuesses PhoneRequest.Verifies).Steps guessing sixGuesses ∧
    (PhoneWorld.compared (lastConfig guessing sixGuesses).world).count sentHash = 6 ∧
    ¬ Along (fun c _ c' => Bounded fiveGuesses sentHash c'.world ∧ TakenBelow fiveGuesses c.world c'.world) guessing
      sixGuesses := by
  have hsix : (PhoneWorld.compared (lastConfig guessing sixGuesses).world).count sentHash = 6 := by decide +kernel
  refine ⟨codeIssued_guessing, steps_drive _ _ _, hsix, fun h => ?_⟩
  have hstart : Bounded fiveGuesses sentHash guessing.world := Nat.zero_le _
  have hall : Along (fun _ _ c' => Bounded fiveGuesses sentHash c'.world) guessing sixGuesses :=
    along_mono (fun _ _ _ h => h.1) h
  have hlast : Bounded fiveGuesses sentHash (lastConfig guessing sixGuesses).world :=
    last_of_along (K := fun c : GuessConfig fiveGuesses => Bounded fiveGuesses sentHash c.world) hstart hall
  unfold Bounded at hlast
  rw [hsix] at hlast
  exact absurd hlast (by decide)

end Guesses

/-! ### Numbers -/

section Numbers

def noNumber : PhoneConfig fiveGuesses fun _ => True := ⟨account {}, fun _ => none⟩

theorem noNumber_start : NoNumber noNumber.world := ⟨rfl, rfl, rfl, rfl⟩

def posts (request : PhoneRequest) (i : ℕ) : (phoneSystem fiveGuesses fun _ => True).Starter i :=
  @sends _ request trivial i

instance decidableInFull (w : PhoneWorld) (tag : PhoneTag) : ∀ ev : Event PhoneSig, Decidable (InFull w tag ev)
  | ⟨.commit loaded assigned, _, true, _⟩ =>
    inferInstanceAs (Decidable (tag.deletes = true ∨ assigned.codeHash ≠ loaded.codeHash →
      (loaded.flush assigned w.user.phone).phoneNumber = assigned.phoneNumber ∧
      (loaded.flush assigned w.user.phone).phoneVerified = assigned.phoneVerified ∧
      (loaded.flush assigned w.user.phone).codeHash = assigned.codeHash))
  | ⟨.commit _ _, _, false, _⟩ | ⟨.compareDigest _ _, _, _, _⟩ | ⟨.consume _ _, _, _, _⟩ | ⟨.currentUser, _, _, _⟩
  | ⟨.now, _, _, _⟩ | ⟨.conflict _ _, _, _, _⟩ | ⟨.generateCode, _, _, _⟩ | ⟨.send _ _, _, _, _⟩
  | ⟨.countGuess, _, _, _⟩ => isTrue trivial

instance decidableFullStep (c : PhoneConfig fiveGuesses fun _ => True) :
    ∀ (l : (phoneSystem fiveGuesses fun _ => True).Label) (c' : PhoneConfig fiveGuesses fun _ => True),
      Decidable (FullStep c l c')
  | .act _ tag ev, _ => decidableInFull c.world tag ev
  | .start _ _, _ | .exit _, _ => isTrue trivial

def numberVerified : List ((phoneSystem fiveGuesses fun _ => True).Label × PhoneConfig fiveGuesses fun _ => True) :=
  Sys.drive (phoneDriver fun _ => True) noNumber
    (.start 0 (posts (.request "+1 (415) 555-2671") 0) :: goes 0 9 ++ .start 1 (posts (.verify "483920") 1) :: goes 1 4 ++
      .start 2 (posts .delete 2) :: goes 2 2)

theorem verified_in_full_number : numberVerified.length = 18 ∧ Along NumberVerified noNumber numberVerified := by
  refine ⟨by decide +kernel, ?_⟩
  have hfull : Along FullStep noNumber numberVerified :=
    @of_decide_eq_true _ (@decidableAlong _ _ _ decidableFullStep _ _) (by decide +kernel)
  exact verified_in_full noNumber_start (fun _ => rfl) (steps_drive _ _ _) hfull

/-- A change of the number reads the row before it is verified, and commits afterwards. -/
def changeRaces : List ((phoneSystem fiveGuesses fun _ => True).Label × PhoneConfig fiveGuesses fun _ => True) :=
  Sys.drive (phoneDriver fun _ => True) noNumber
    (.start 0 (posts (.request "+14155552671") 0) :: goes 0 9 ++ .start 1 (waits 60000000 1) ::
      .start 2 (posts (.request "+14155552672") 2) :: goes 2 3 ++ .start 3 (posts (.verify "483920") 3) :: goes 3 4 ++ goes 2 3)

/-- The number is verified, and the code accepted last was sent to another. -/
def Untruthful (w : PhoneWorld) : Prop :=
  w.user.phone.phoneVerified = true ∧ w.user.phone.phoneNumber = some "+14155552672" ∧
    w.accepted.head? = some (some "+14155552671")

instance decidableUntruthful (w : PhoneWorld) : Decidable (Untruthful w) :=
  inferInstanceAs (Decidable (w.user.phone.phoneVerified = true ∧ w.user.phone.phoneNumber = some "+14155552672" ∧
    w.accepted.head? = some (some "+14155552671")))

theorem changeRaces_ends : Untruthful (lastConfig noNumber changeRaces).world :=
  @of_decide_eq_true _ (decidableUntruthful _) (by decide +kernel)

theorem not_truthful (h : Untruthful w) : ¬ w.Truthful := by
  intro htruthful
  obtain ⟨hverified, hnumber, haccepted⟩ := h
  obtain ⟨phoneNumber, hstored, hsent⟩ := htruthful hverified
  obtain rfl := Option.some.inj (hnumber.symm.trans hstored)
  rw [haccepted] at hsent
  exact absurd hsent (by decide)

/-- **A number changed while the old one is verified**: the new number is stored as verified. -/
theorem change_verified : NoNumber noNumber.world ∧ (phoneSystem fiveGuesses fun _ => True).Steps noNumber changeRaces ∧
    Untruthful (lastConfig noNumber changeRaces).world ∧ ¬ Along NumberVerified noNumber changeRaces := by
  refine ⟨noNumber_start, steps_drive _ _ _, changeRaces_ends, fun h => ?_⟩
  have hstart : PhoneWorld.Truthful noNumber.world := (phoneInv_noNumber noNumber_start).truthful
  have hall : Along (fun _ _ c' => PhoneWorld.Truthful c'.world) noNumber changeRaces := along_mono (fun _ _ _ h => h.1) h
  exact not_truthful changeRaces_ends (last_of_along hstart hall)

end Numbers

end Concrete

end Transform.Accounts
