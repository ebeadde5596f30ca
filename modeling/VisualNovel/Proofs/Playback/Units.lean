import VisualNovel.Playback.Operation
import VisualNovel.Proofs.Playback.Departure

namespace VisualNovel

namespace Machine

-- So many units in a row, each of them due, with all that they emit.
inductive Works : Nat → Machine → List Signal → Machine → Prop where
  | nil : Works 0 m [] m
  | cons (due : m.pending = true) (further : Works units m.work.1 signals next) :
      Works (units + 1) m (m.work.2 ++ signals) next

def tripped (m : Machine) (limit : Nat) (earlier : List Signal) : Reply Unit :=
  ⟨m.giveUp limit,
    earlier ++ [.record (.guardExceeded limit m.cursor), (m.giveUp limit).debugEvent],
    .error (.guardExceeded limit)⟩

-- How a drive ends after so many units of work, whatever its budget.
inductive Drives (m : Machine) : Nat → Reply Unit → Prop where
  | rests (works : Works units m signals next) (within : ∀ limit ∈ m.stepGuard, units ≤ limit)
      (settled : next.pending = false) : Drives m units ⟨next.rest, signals, .ok ()⟩
  | trips (works : Works limit m signals next) (guarded : m.stepGuard = some limit)
      (left : next.pending = true) : Drives m limit (next.tripped limit signals)

variable {m next : Machine}

theorem pending_iff : m.pending = true ↔ m.due = true ∧ m.phase = .playing := by simp [pending]

theorem Works.append (first : Works units m signals next) (second : Works more next further last) :
    Works (units + more) m (signals ++ further) last := by
  induction first with
  | nil => simpa using second
  | cons due _ ih =>
    rw [Nat.add_right_comm, List.append_assoc]
    exact .cons due (ih second)

theorem Works.snoc (works : Works units m signals next) (due : next.pending = true) :
    Works (units + 1) m (signals ++ next.work.2) next.work.1 := by
  have last : Works 1 next (next.work.2 ++ []) next.work.1 := .cons due .nil
  rw [List.append_nil] at last
  exact works.append last

theorem exists_works (units : Nat) (m : Machine) :
    (∃ signals next, Works units m signals next) ∨
      ∃ fewer < units, ∃ signals next, Works fewer m signals next ∧ next.pending = false := by
  induction units with
  | zero => exact .inl ⟨[], m, .nil⟩
  | succ units ih =>
    rcases ih with ⟨signals, next, works⟩ | ⟨fewer, less, signals, next, works, settled⟩
    · cases due : next.pending with
      | true => exact .inl ⟨_, _, works.snoc due⟩
      | false => exact .inr ⟨units, Nat.lt_succ_self _, signals, next, works, due⟩
    · exact .inr ⟨fewer, Nat.lt_succ_of_lt less, signals, next, works, settled⟩

theorem Works.workOn (works : Works units m signals next) (more : Nat) (log : List Signal) :
    m.workOn (units + more) log = next.workOn more (signals.reverse ++ log) := by
  induction works generalizing log with
  | nil => simp
  | cons due further ih =>
    rw [Nat.add_right_comm, Machine.workOn, if_pos due]
    dsimp only
    rw [ih, List.reverseAux_eq, List.reverse_append, List.append_assoc]

theorem Works.workOn_all (works : Works units m signals next) (log : List Signal) :
    m.workOn units log = (next, signals.reverse ++ log) := works.workOn 0 log

theorem workOn_settled (settled : m.pending = false) (units : Nat) (log : List Signal) :
    m.workOn units log = (m, log) := by
  cases units with
  | zero => rfl
  | succ units => simp [Machine.workOn, settled]

theorem Works.workOn_settled (works : Works units m signals next) (settled : next.pending = false)
    (within : units ≤ most) (log : List Signal) :
    m.workOn most log = (next, signals.reverse ++ log) := by
  obtain ⟨more, rfl⟩ := Nat.exists_eq_add_of_le within
  rw [works.workOn, Machine.workOn_settled settled]

end Machine

def Reply.behind (earlier : List Signal) (reply : Reply α) : Reply α :=
  { reply with signals := earlier ++ reply.signals }

namespace Machine

variable {m next : Machine} {reply : Reply Unit}

theorem drive_of_rests (works : Works units m signals next)
    (within : ∀ limit ∈ m.stepGuard, units ≤ limit) (settled : next.pending = false)
    (enough : m.stepGuard = none → units ≤ budget) (earlier : List Signal) :
    m.drive budget earlier = some (Reply.behind earlier ⟨next.rest, signals, .ok ()⟩) := by
  unfold drive
  cases guarded : m.stepGuard with
  | some limit =>
    simp [works.workOn_settled settled (within limit guarded), settled, Reply.behind]
  | none =>
    simp [works.workOn_settled settled (enough guarded), settled, Reply.behind]

theorem drive_of_trips (works : Works limit m signals next) (guarded : m.stepGuard = some limit)
    (left : next.pending = true) (budget : Nat) (earlier : List Signal) :
    m.drive budget earlier = some (Reply.behind earlier (next.tripped limit signals)) := by
  simp [drive, guarded, works.workOn_all, left, Reply.behind, tripped]

theorem Drives.drive_eq (drives : Drives m units reply)
    (enough : m.stepGuard = none → units ≤ budget) (earlier : List Signal) :
    m.drive budget earlier = some (reply.behind earlier) := by
  cases drives with
  | rests works within settled => exact drive_of_rests works within settled enough earlier
  | trips works guarded left => exact drive_of_trips works guarded left budget earlier

theorem drives_or_unguarded (m : Machine) (budget : Nat) :
    (∃ units reply, Drives m units reply ∧ (m.stepGuard = none → units ≤ budget)) ∨
      (m.stepGuard = none ∧ ∃ signals next, Works budget m signals next ∧ next.pending = true) := by
  cases guarded : m.stepGuard with
  | some limit =>
    left
    rcases exists_works limit m with ⟨signals, next, works⟩ | ⟨units, less, signals, next, works,
      settled⟩
    · cases left : next.pending with
      | true => exact ⟨limit, _, .trips works guarded left, nofun⟩
      | false =>
        have within : ∀ own ∈ m.stepGuard, limit ≤ own := by simp [guarded]
        exact ⟨limit, _, .rests works within left, nofun⟩
    · have within : ∀ own ∈ m.stepGuard, units ≤ own := by simp [guarded, Nat.le_of_lt less]
      exact ⟨units, _, .rests works within settled, nofun⟩
  | none =>
    have within (units : Nat) : ∀ own ∈ m.stepGuard, units ≤ own := by simp [guarded]
    rcases exists_works budget m with ⟨signals, next, works⟩ | ⟨units, less, signals, next, works,
      settled⟩
    · cases left : next.pending with
      | true => exact .inr ⟨rfl, signals, next, works, left⟩
      | false => exact .inl ⟨budget, _, .rests works (within _) left, fun _ => Nat.le_refl _⟩
    · exact .inl ⟨units, _, .rests works (within _) settled, fun _ => Nat.le_of_lt less⟩

theorem drive_eq_some_iff : m.drive budget earlier = some reply ↔
    ∃ units ended, Drives m units ended ∧ (m.stepGuard = none → units ≤ budget) ∧
      reply = ended.behind earlier := by
  constructor
  · intro returned
    rcases drives_or_unguarded m budget with ⟨units, ended, drives, enough⟩ | ⟨free, signals, next,
      works, left⟩
    · rw [drives.drive_eq enough] at returned
      exact ⟨units, ended, drives, enough, (Option.some.inj returned).symm⟩
    · simp [drive, free, works.workOn_all, left] at returned
  · rintro ⟨units, ended, drives, enough, rfl⟩
    exact drives.drive_eq enough earlier

end Machine

inductive Drive where
  | start (label : Option String)
  | advance
  | choose (label : String)
deriving DecidableEq

namespace Drive

def operation : Drive → Operation
  | .start label => .start label
  | .advance => .advance
  | .choose label => .choose label

def on (budget : Nat) (m : Machine) : Drive → Option (Reply Unit)
  | .start label => m.start budget label
  | .advance => m.advance budget
  | .choose label => m.choose budget label

-- Where the machine works from, with what led there; nothing if it is left as it is.
def opening? (m : Machine) : Drive → Option (Machine × List Signal)
  | .start label =>
    if m.script = [] ∨ m.phase = .ended then none
    else
      match m.entry? label with
      | some label => some ({ m with phase := .playing }.jumpToLabel label)
      | none => some ({ m with phase := .playing, cursor := 0, due := true }, [])
  | .advance => if m.phase = .waiting then some ({ m with phase := .playing }.proceed, []) else none
  | .choose label => if m.phase = .choice then some (m.jumpToLabel label) else none

def idle (m : Machine) : Drive → Reply Unit
  | .start _ => if m.script = [] then m.unchanged else ⟨m, [.record .startIgnored], .ok ()⟩
  | .advance => m.unchanged
  | .choose _ => m.unchanged

inductive Returns (m : Machine) (drive : Drive) : Nat → Reply Unit → Prop where
  | idle (nothing : drive.opening? m = none) : Returns m drive 0 (drive.idle m)
  | drives (opening : drive.opening? m = some (entered, earlier))
      (drives : entered.Drives units reply) : Returns m drive units (reply.behind earlier)

-- The ways to set a machine to work, with where it works from and what led there.
inductive Opens (m : Machine) : Drive → Machine × List Signal → Prop where
  | atLabel (nonempty : m.script ≠ []) (running : m.phase ≠ .ended)
      (entry : m.entry? label = some target) :
      Opens m (.start label) ({ m with phase := .playing }.jumpToLabel target)
  | atTop (nonempty : m.script ≠ []) (running : m.phase ≠ .ended)
      (entry : m.entry? label = none) :
      Opens m (.start label) ({ m with phase := .playing, cursor := 0, due := true }, [])
  | behind (waiting : m.phase = .waiting) :
      Opens m .advance ({ m with phase := .playing }.proceed, [])
  | atChoice (choice : m.phase = .choice) : Opens m (.choose label) (m.jumpToLabel label)

-- Where the operation has come to after so many units of work, with what it has emitted by then.
inductive Passes (m : Machine) (drive : Drive) : Nat → List Signal → Machine → Prop where
  | works (opening : drive.opening? m = some (entered, earlier))
      (works : Machine.Works units entered signals next) :
      Passes m drive units (earlier ++ signals) next

variable {m : Machine} {drive : Drive}

theorem on_operation (drive : Drive) (budget : Nat) (m : Machine) :
    m.perform budget drive.operation = (drive.on budget m).map Reply.done := by
  cases drive <;> rfl

theorem idle_cases (drive : Drive) (m : Machine) :
    drive.idle m = m.unchanged ∨ drive.idle m = ⟨m, [.record .startIgnored], .ok ()⟩ := by
  cases drive with
  | start label =>
    dsimp only [idle]
    split
    · exact .inl rfl
    · exact .inr rfl
  | advance => exact .inl rfl
  | choose label => exact .inl rfl

theorem idle_machine (drive : Drive) (m : Machine) : (drive.idle m).machine = m := by
  rcases drive.idle_cases m with same | same <;> exact congrArg Reply.machine same

theorem idle_result (drive : Drive) (m : Machine) : (drive.idle m).result = .ok () := by
  rcases drive.idle_cases m with same | same <;> exact congrArg Reply.result same

theorem opening?_start_eq_none {label : Option String} :
    (Drive.start label).opening? m = none ↔ m.script = [] ∨ m.phase = .ended := by
  simp only [opening?]
  split
  · rename_i kept
    exact iff_of_true rfl kept
  · rename_i going
    refine iff_of_false ?_ going
    split <;> exact nofun

theorem on_of_idle (nothing : drive.opening? m = none) (budget : Nat) :
    drive.on budget m = some (drive.idle m) := by
  cases drive with
  | start label =>
    have kept := opening?_start_eq_none.1 nothing
    by_cases empty : m.script = []
    · simp [on, idle, Machine.start, empty]
    · simp [on, idle, Machine.start, empty, kept.resolve_left empty]
  | advance =>
    have other : m.phase ≠ .waiting := fun waiting => by simp [opening?, waiting] at nothing
    simp [on, idle, Machine.advance, other]
  | choose label =>
    have other : m.phase ≠ .choice := fun choice => by simp [opening?, choice] at nothing
    simp [on, idle, Machine.choose, other]

theorem opens_of_opening (opening : drive.opening? m = some opened) : Opens m drive opened := by
  cases drive with
  | start label =>
    simp only [opening?] at opening
    split at opening
    · cases opening
    · rename_i going
      obtain ⟨nonempty, running⟩ := not_or.1 going
      split at opening
      · rename_i target entry
        cases Option.some.inj opening
        exact .atLabel nonempty running entry
      · rename_i entry
        cases Option.some.inj opening
        exact .atTop nonempty running entry
  | advance =>
    simp only [opening?] at opening
    split at opening
    · rename_i waiting
      cases Option.some.inj opening
      exact .behind waiting
    · cases opening
  | choose label =>
    simp only [opening?] at opening
    split at opening
    · rename_i choice
      cases Option.some.inj opening
      exact .atChoice choice
    · cases opening

theorem on_of_opening (opening : drive.opening? m = some opened) (budget : Nat) :
    drive.on budget m = opened.1.drive budget opened.2 := by
  cases opens_of_opening opening with
  | atLabel nonempty running entry =>
    simp only [on, Machine.start, if_neg nonempty, if_neg running, entry]
  | atTop nonempty running entry =>
    simp only [on, Machine.start, if_neg nonempty, if_neg running, entry]
  | behind waiting => simp only [on, Machine.advance, if_pos waiting]
  | atChoice choice => simp only [on, Machine.choose, if_pos choice]

theorem opening_cases (opening : drive.opening? m = some (entered, earlier)) :
    (∃ phase label, (phase = .playing ∨ phase = .choice) ∧
      { m with phase := phase }.jumpToLabel label = (entered, earlier)) ∨
    ∃ cursor, entered = { m with phase := .playing, cursor := cursor, due := true } ∧
      earlier = [] := by
  generalize same : (entered, earlier) = opened at opening ⊢
  cases opens_of_opening opening with
  | atLabel nonempty running entry => exact .inl ⟨.playing, _, .inl rfl, rfl⟩
  | atTop nonempty running entry =>
    cases same
    exact .inr ⟨0, rfl, rfl⟩
  | behind waiting =>
    cases same
    exact .inr ⟨_, rfl, rfl⟩
  | @atChoice label choice =>
    have here : ({ m with phase := .choice } : Machine) = m := by rw [← choice]
    exact .inl ⟨.choice, label, .inr rfl, by rw [here]⟩

theorem opening_plays (opening : drive.opening? m = some (entered, earlier)) :
    (entered.phase = .playing ∧ events earlier = []) ∨
      ∃ label, drive = .choose label ∧ m.phase = .choice ∧
        m.jumpToLabel label = (entered, earlier) := by
  generalize same : (entered, earlier) = opened at opening ⊢
  cases opens_of_opening opening with
  | atLabel nonempty running entry =>
    unfold Machine.jumpToLabel at same
    split at same <;> (cases same; exact .inl ⟨rfl, rfl⟩)
  | atTop nonempty running entry =>
    cases same
    exact .inl ⟨rfl, rfl⟩
  | behind waiting =>
    cases same
    exact .inl ⟨rfl, rfl⟩
  | @atChoice label choice => exact .inr ⟨label, rfl, choice, rfl⟩

theorem untouched_of_opening (opening : drive.opening? m = some (entered, earlier)) :
    Machine.Untouched m entered := by
  rcases opening_cases opening with ⟨phase, label, -, jumped⟩ | ⟨cursor, rfl, -⟩
  · have landed := Machine.jumpToLabel_untouched { m with phase := phase } label
    rw [jumped] at landed
    exact ⟨landed.script, landed.seed, landed.stepGuard, landed.stepCount, landed.environment⟩
  · exact ⟨rfl, rfl, rfl, rfl, rfl⟩

theorem Returns.on_eq (returns : drive.Returns m units reply)
    (enough : m.stepGuard = none → units ≤ budget) : drive.on budget m = some reply := by
  cases returns with
  | idle nothing => exact on_of_idle nothing budget
  | drives opening drives =>
    rw [on_of_opening opening]
    refine drives.drive_eq (fun free => enough ?_) _
    exact (untouched_of_opening opening).stepGuard.symm.trans free

theorem on_eq_some_iff : drive.on budget m = some reply ↔
    ∃ units, drive.Returns m units reply ∧ (m.stepGuard = none → units ≤ budget) := by
  constructor
  · intro returned
    cases opening : drive.opening? m with
    | none =>
      rw [on_of_idle opening] at returned
      cases Option.some.inj returned
      exact ⟨0, .idle opening, fun _ => Nat.zero_le _⟩
    | some opened =>
      obtain ⟨entered, earlier⟩ := opened
      rw [on_of_opening opening, Machine.drive_eq_some_iff] at returned
      obtain ⟨units, ended, drives, enough, rfl⟩ := returned
      refine ⟨units, .drives opening drives, fun free => enough ?_⟩
      exact (untouched_of_opening opening).stepGuard.trans free
  · rintro ⟨units, returns, enough⟩
    exact returns.on_eq enough

theorem returns_of_perform {done : Reply Answer}
    (performed : m.perform budget drive.operation = some done) :
    ∃ units reply, drive.Returns m units reply ∧ done = reply.done := by
  rw [on_operation] at performed
  obtain ⟨reply, ran, rfl⟩ := Option.map_eq_some_iff.1 performed
  obtain ⟨units, returns, -⟩ := on_eq_some_iff.1 ran
  exact ⟨units, reply, returns, rfl⟩

theorem Returns.performs (returns : drive.Returns m units reply) :
    m.perform units drive.operation = some reply.done := by
  rw [on_operation, returns.on_eq fun _ => Nat.le_refl units]
  rfl

end Drive

end VisualNovel
