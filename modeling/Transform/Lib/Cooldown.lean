import Mathlib.Data.Int.Notation
import Transform.Lib.Watch

/-!
# Lib.Cooldown — messages that wait for a stamp

Senders share a stamp: one reads it, begins a message when the time since the stamp is over, hands the message over, and
only then sets the stamp.  `SendLog` is kept beside the system; `Sys.logged` is a system with such a log.  Where each message
is handed over in turn (the sender's read showed every message before it), the messages are spaced (`sound_hand`,
`sound_note`).
-/

namespace Transform.Lib

/-! ## A system with a log -/

section Logged

variable {S : Sig}

/-- The system with a log that each exchange is entered in. -/
def Sys.logged (A : Sys S) (L : Type) (enter : L → ℕ → Event S → L) : Sys S where
  World := A.World × L
  Tag := A.Tag
  spawn w i tag p w' := A.spawn w.1 i tag p w'.1 ∧ w'.2 = w.2
  Allowed w := A.Allowed w.1
  apply w i tag ev := (A.apply w.1 i tag ev, enter w.2 i ev)

variable {A : Sys S} {L : Type} {enter : L → ℕ → Event S → L}

/-- The answers of the system without its log. -/
def Sys.Driver.logged (D : A.Driver) (L : Type) (enter : L → ℕ → Event S → L) : (A.logged L enter).Driver where
  reply w := D.reply w.1
  check w := D.check w.1
  sound h := D.sound h

def Sys.Starter.logged {i : ℕ} (starter : A.Starter i) (L : Type) (enter : L → ℕ → Event S → L) :
    (A.logged L enter).Starter i where
  start w := (starter.start w.1).map fun started => (started.1, started.2.1, started.2.2, w.2)
  sound := by
    intro w tag p w' h
    obtain ⟨started, hstarted, heq⟩ := Option.map_eq_some_iff.1 h
    cases heq
    exact ⟨starter.sound hstarted, rfl⟩

end Logged

/-! ## The log -/

/-- When each message that was handed over was begun, with the newest first; who handed the newest over; how many of them
the stamp shows; and of each sender how many of them its read of the stamp showed, its last reading of the clock, and the
time at which it began its message. -/
structure SendLog where
  handed : List ℤ := []
  owner : Option ℕ := none
  noted : ℕ := 0
  known : ℕ → ℕ := fun _ => 0
  reading : ℕ → ℤ := fun _ => 0
  began : ℕ → ℤ := fun _ => 0

inductive LogEntry
  | read
  | clock (time : ℤ)
  | begun
  | hand
  | note
  | idle

namespace SendLog

variable (log : SendLog)

def enter (i : ℕ) : LogEntry → SendLog
  | .read => { log with known := Function.update log.known i log.noted }
  | .clock time => { log with reading := Function.update log.reading i time }
  | .begun => { log with began := Function.update log.began i (log.reading i) }
  | .hand => { log with handed := log.began i :: log.handed, owner := some i }
  | .note => { log with noted := log.noted + 1 }
  | .idle => log

/-- Any two messages were begun so far apart. -/
def Spaced (cooldown : ℤ) : Prop := log.handed.Pairwise fun later earlier => earlier + cooldown ≤ later

/-- The stamp that the sender has read shows every message. -/
def InTurn (i : ℕ) : Prop := log.known i = log.handed.length

instance decidableInTurn (i : ℕ) : Decidable (log.InTurn i) := inferInstanceAs (Decidable (_ = _))

/-- A stamp is no earlier than any message. -/
def Covers (stamp : Option ℤ) : Prop := ∀ time ∈ log.handed, ∃ s ∈ stamp, time ≤ s

/-- The messages are spaced, and a stamp that shows them all covers them. -/
structure Sound (cooldown : ℤ) (stamp : Option ℤ) : Prop where
  spaced : log.Spaced cooldown
  noted : log.noted ≤ log.handed.length
  covers : log.noted = log.handed.length → log.Covers stamp

/-- A sender that has read the stamp. -/
structure Reader (stamp : Option ℤ) (i : ℕ) : Prop where
  known : log.known i ≤ log.noted
  covers : log.InTurn i → log.Covers stamp

/-- A sender that has handed its message over and not set the stamp yet. -/
structure Holder (i : ℕ) : Prop where
  owner : log.owner = some i
  unnoted : log.noted + 1 = log.handed.length
  newest : log.handed.head? = some (log.began i)

end SendLog

section Entries

variable {log : SendLog} {cooldown s : ℤ} {stamp read : Option ℤ} {i j : ℕ} {entry : LogEntry}

/-- Entries that are not about the messages. -/
def LogEntry.Private : LogEntry → Prop
  | .read | .clock _ | .begun | .idle => True
  | .hand | .note => False

theorem sound_private (h : log.Sound cooldown stamp) (he : entry.Private) : (log.enter i entry).Sound cooldown stamp := by
  cases entry with
  | hand => exact he.elim
  | note => exact he.elim
  | _ => exact ⟨h.spaced, h.noted, h.covers⟩

theorem reader_read (h : log.Sound cooldown stamp) : (log.enter i .read).Reader stamp i := by
  have hknown : (log.enter i .read).known i = log.noted := Function.update_self ..
  refine ⟨Nat.le_of_eq hknown, fun hturn => ?_⟩
  have hall : log.noted = log.handed.length := hknown.symm.trans hturn
  exact h.covers hall

theorem reader_private (h : log.Reader read j) (he : entry.Private) (hread : entry = .read → j ≠ i) :
    (log.enter i entry).Reader read j := by
  cases entry with
  | hand => exact he.elim
  | note => exact he.elim
  | read =>
    have hknown : (log.enter i .read).known j = log.known j := Function.update_of_ne (hread rfl) ..
    exact ⟨Nat.le_trans (Nat.le_of_eq hknown) h.known, fun hturn => h.covers (hknown.symm.trans hturn)⟩
  | _ => exact ⟨h.known, h.covers⟩

theorem holder_private (h : log.Holder j) (he : entry.Private) (hbegun : entry = .begun → j ≠ i) :
    (log.enter i entry).Holder j := by
  cases entry with
  | hand => exact he.elim
  | note => exact he.elim
  | begun =>
    have hbegan : (log.enter i .begun).began j = log.began j := Function.update_of_ne (hbegun rfl) ..
    refine ⟨h.owner, h.unnoted, ?_⟩
    rw [hbegan]
    exact h.newest
  | _ => exact ⟨h.owner, h.unnoted, h.newest⟩

theorem noted_of_inTurn (h : log.Sound cooldown stamp) (hread : log.Reader read i) (hturn : log.InTurn i) :
    log.noted = log.handed.length := by
  have hknown := hread.known
  have hnoted := h.noted
  unfold SendLog.InTurn at hturn
  omega

theorem sound_hand (h : log.Sound cooldown stamp) (hread : log.Reader read i) (hturn : log.InTurn i)
    (helapsed : ∀ s ∈ read, s + cooldown ≤ log.began i) : (log.enter i .hand).Sound cooldown stamp := by
  have hnoted := noted_of_inTurn h hread hturn
  have hlength : (log.enter i .hand).handed.length = log.handed.length + 1 := rfl
  refine ⟨List.pairwise_cons.2 ⟨fun time htime => ?_, h.spaced⟩, Nat.le_succ_of_le h.noted, fun hall => ?_⟩
  · obtain ⟨s, hs, hle⟩ := hread.covers hturn time htime
    have hover := helapsed s hs
    omega
  · have hsame : (log.enter i .hand).noted = log.noted := rfl
    omega

theorem holder_hand (h : log.Sound cooldown stamp) (hread : log.Reader read i) (hturn : log.InTurn i) :
    (log.enter i .hand).Holder i :=
  ⟨rfl, congrArg Nat.succ (noted_of_inTurn h hread hturn), rfl⟩

theorem not_inTurn_of_holder (h : log.Sound cooldown stamp) (hread : log.Reader read i) (hholder : log.Holder j) :
    ¬ log.InTurn i := by
  intro hturn
  have hnoted := noted_of_inTurn h hread hturn
  have hunnoted := hholder.unnoted
  omega

theorem reader_hand (h : log.Sound cooldown stamp) (hread : log.Reader read j) : (log.enter i .hand).Reader read j := by
  refine ⟨hread.known, fun hturn => ?_⟩
  have hknown : (log.enter i .hand).known j = log.handed.length + 1 := hturn
  have hle : (log.enter i .hand).known j ≤ log.noted := hread.known
  have hnoted := h.noted
  omega

/-- The stamp is set to a time that is not before the message. -/
theorem sound_note (h : log.Sound cooldown stamp) (hholder : log.Holder i) (hcooldown : 0 ≤ cooldown) (hs : log.began i ≤ s) :
    (log.enter i .note).Sound cooldown (some s) := by
  obtain ⟨rest, hhanded⟩ := List.head?_eq_some_iff.1 hholder.newest
  refine ⟨h.spaced, Nat.le_of_eq hholder.unnoted, fun _ time htime => ⟨s, rfl, ?_⟩⟩
  have hspaced := h.spaced
  unfold SendLog.Spaced at hspaced
  rw [hhanded, List.pairwise_cons] at hspaced
  have hmem : time ∈ log.began i :: rest := hhanded ▸ htime
  rcases List.mem_cons.1 hmem with rfl | hrest
  · exact hs
  · have hapart := hspaced.1 time hrest
    omega

theorem reader_note (hread : log.Reader read j) (hholder : log.Holder i) : (log.enter i .note).Reader read j := by
  refine ⟨Nat.le_succ_of_le hread.known, fun hturn => ?_⟩
  have hknown : log.known j = log.handed.length := hturn
  have hle := hread.known
  have hunnoted := hholder.unnoted
  omega

/-- What an entry is made for: a message is handed over in turn, by a sender that has read the stamp, and the stamp is set by
the sender of the newest. -/
def LogEntry.Due (log : SendLog) (i : ℕ) : LogEntry → Prop
  | .hand => log.InTurn i ∧ ∃ read, log.Reader read i
  | .note => log.Holder i
  | _ => True

theorem reading_other (hji : j ≠ i) : (log.enter i entry).reading j = log.reading j := by
  cases entry with
  | clock time => exact Function.update_of_ne hji ..
  | _ => rfl

theorem began_other (hji : j ≠ i) : (log.enter i entry).began j = log.began j := by
  cases entry with
  | begun => exact Function.update_of_ne hji ..
  | _ => rfl

theorem reader_other (h : log.Sound cooldown stamp) (hdue : entry.Due log i) (hji : j ≠ i) (hread : log.Reader read j) :
    (log.enter i entry).Reader read j := by
  cases entry with
  | hand => exact reader_hand h hread
  | note => exact reader_note hread hdue
  | _ => exact reader_private hread trivial fun _ => hji

theorem holder_other (h : log.Sound cooldown stamp) (hdue : entry.Due log i) (hji : j ≠ i) (hholder : log.Holder j) :
    (log.enter i entry).Holder j := by
  cases entry with
  | hand =>
    obtain ⟨hturn, read, hread⟩ := hdue
    exact absurd hturn (not_inTurn_of_holder h hread hholder)
  | note =>
    have howner : some i = some j := hdue.owner.symm.trans hholder.owner
    exact absurd (Option.some.inj howner).symm hji
  | _ => exact holder_private hholder trivial fun _ => hji

end Entries

end Transform.Lib
