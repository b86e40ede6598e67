import Chip8.Proofs.SessionRun

/-!
# Refused calls

A session refuses a call for what is asked alone: a program that is not fit, a file that cannot be
read or is too long, a number that is no key, a range that is not in memory, a width of a dump that
is not positive, and a run that is too long for a progress display. `Call.Refused` is the table of
these causes, with one row for each call.

A call goes through its statements one after the other, and would keep what they have changed if a
later one failed. But what may fail comes first (`settle_eq_error_iff`), so a refused call leaves
the session as it was. `call_error_iff` says that the calls of the table are refused, each with its
cause, that no other call is, and that nothing is changed then. So no program that a session runs
makes a call fail.
-/
namespace Chip8

namespace Program

/-- Why a program is not fit to be loaded: it has a number that is no byte, or else it is longer
than the program memory. -/
def Unfit (program : List Int) : Failure → Prop
  | .programByte => ∃ i ∈ program, i < 0 ∨ 255 < i
  | .programSize size =>
    (∀ i ∈ program, 0 ≤ i ∧ i ≤ 255) ∧ size = program.length ∧ 3584 < program.length
  | _ => False

end Program

/-- Why a call is refused. -/
def Call.Refused : Call → Failure → Prop
  | .load program, e => Program.Unfit program e
  | .loadFile _ (.error cause), e => e = cause
  | .loadFile _ (.ok bytes), e => e = .programSize bytes.length ∧ 3584 < bytes.length
  | .press k, e | .release k, e => e = .keyRange k ∧ (k < 0 ∨ 15 < k)
  | .readMemory start length, e =>
    e = .memoryRange start length ∧ (start < 0 ∨ length < 0 ∨ 4096 < start + length)
  | .dumpMemory start stop width, e =>
    e = .dumpWidth width ∧ width ≤ 0 ∨
      e = .memoryRange start (stop - start) ∧ 0 < width ∧ (start < 0 ∨ stop < start ∨ 4096 < stop)
  | .runShown n, e => e = .stepCount ∧ 0x8000000000000000 ≤ n
  | .step, _ | .run _, _ | .runPeriod, _ | .tick, _ | .reset, _ | .table, _ | .halts, _
  | .sketch .., _ => False

/-! ## Programs -/

namespace Program

variable {program : List Int} {e : Failure}

theorem mapM_eq_none_iff :
    program.mapM Byte.ofInt? = none ↔ ∃ i ∈ program, i < 0 ∨ 255 < i := by
  induction program with
  | nil => simp
  | cons i program ih =>
    simp only [List.mem_cons, exists_eq_or_imp]
    rw [← Byte.ofInt?_eq_none_iff, ← ih, List.mapM_cons]
    cases Byte.ofInt? i with
    | none => simp
    | some b => cases program.mapM Byte.ofInt? <;> simp

theorem length_of_mapM {bytes : List Byte} (h : program.mapM Byte.ofInt? = some bytes) :
    bytes.length = program.length := by
  induction program generalizing bytes with
  | nil =>
    cases h
    rfl
  | cons i program ih =>
    rw [List.mapM_cons] at h
    simp only [Option.bind_eq_bind, Option.bind_eq_some_iff, Option.pure_def] at h
    obtain ⟨b, -, bs, hbs, ⟨⟩⟩ := h
    simp [ih hbs]

theorem check_eq_error_iff : check program = .error e ↔ Unfit program e := by
  unfold check
  cases hm : program.mapM Byte.ofInt? with
  | none =>
    obtain ⟨i, hi, hb⟩ := mapM_eq_none_iff.mp hm
    constructor
    · rintro ⟨⟩
      exact ⟨i, hi, hb⟩
    · intro h
      cases e with
      | programByte => rfl
      | programSize size =>
        have := h.1 i hi
        omega
      | _ => exact h.elim
  | some bytes =>
    have hall : ¬ ∃ i ∈ program, i < 0 ∨ 255 < i := by
      rw [← mapM_eq_none_iff, hm]
      nofun
    have hbytes : ∀ i ∈ program, 0 ≤ i ∧ i ≤ 255 := fun i hi =>
      ⟨Int.not_lt.mp fun h => hall ⟨i, hi, .inl h⟩, Int.not_lt.mp fun h => hall ⟨i, hi, .inr h⟩⟩
    simp only [length_of_mapM hm, show Memory.programSpace = 3584 from rfl]
    constructor
    · intro h
      split at h
      · cases h
      · cases h
        exact ⟨hbytes, rfl, by omega⟩
    · intro h
      cases e with
      | programByte => exact absurd h hall
      | programSize size =>
        obtain ⟨-, rfl, hsize⟩ := h
        exact if_neg (by omega)
      | _ => exact h.elim

/-- What a file holds are bytes, so only its size can be unfit. -/
theorem unfit_bytes_iff {bytes : List Byte} :
    Unfit (Byte.numbers bytes) e ↔ e = .programSize bytes.length ∧ 3584 < bytes.length := by
  have hall : ∀ i ∈ Byte.numbers bytes, 0 ≤ i ∧ i ≤ 255 := by
    intro i hi
    obtain ⟨b, -, rfl⟩ := List.mem_map.mp hi
    have := b.isLt
    omega
  cases e with
  | programByte =>
    refine ⟨fun ⟨i, hi, hb⟩ => ?_, nofun⟩
    have := hall i hi
    omega
  | programSize size =>
    simp only [Unfit, Byte.length_numbers, Failure.programSize.injEq]
    exact and_iff_right hall
  | _ => exact ⟨False.elim, nofun⟩

end Program

/-! ## Keys and ranges -/

namespace Session

variable {s t : Session} {c : Call} {e : Failure}

theorem map_eq_error_iff {α β : Type} {x : Except Failure α} {f : α → β} :
    x.map f = .error e ↔ x = .error e := by
  cases x <;> simp [Except.map]

theorem key_eq_error_iff {k : Int} : key k = .error e ↔ e = .keyRange k ∧ (k < 0 ∨ 15 < k) := by
  unfold key
  split
  case isTrue h => simp; omega
  case isFalse h => simp [eq_comm]; omega

theorem range_eq_error_iff {m : Memory} {start length : Int} :
    m.range start length = .error e ↔
      e = .memoryRange start length ∧ (start < 0 ∨ length < 0 ∨ 4096 < start + length) := by
  unfold Memory.range
  split
  case isTrue h => simp [h, eq_comm]
  case isFalse h => simp [h]

theorem dump_eq_error_iff {m : Memory} {start stop width : Int} :
    m.dump start stop width = .error e ↔ (Call.dumpMemory start stop width).Refused e := by
  unfold Memory.dump Call.Refused
  split
  case isTrue hw =>
    simp only [Except.error.injEq, eq_comm, hw, and_true, show ¬ 0 < width by omega, false_and,
      and_false, or_false]
  case isFalse hw =>
    rw [map_eq_error_iff, range_eq_error_iff]
    simp only [hw, and_false, false_or, show 0 < width by omega, true_and]
    refine and_congr_right fun _ => ?_
    omega

/-! ## Calls -/

theorem load_eq_error_iff {m : Machine} {program : List Int} :
    m.load program = .error e ↔ Program.Unfit program e := by
  rw [Machine.load, map_eq_error_iff, Program.check_eq_error_iff]

/-- What fails is tried before anything is changed. -/
theorem settle_eq_error_iff {α : Type} {x : Except Failure α} {f : α → Session × Reply} :
    s.settle x f = (t, .error e) ↔ t = s ∧ x = .error e := by
  cases x with
  | ok a => simp [settle]
  | error e' => simp [settle, eq_comm]

theorem call_eq_error_iff : s.call c = (t, .error e) ↔ t = s ∧ c.Refused e := by
  cases c with
  | load program => rw [call_load, settle_eq_error_iff, load_eq_error_iff, Call.Refused]
  | loadFile name content =>
    rw [call_loadFile]
    cases content with
    | error cause =>
      rw [Prod.mk.injEq, Except.error.injEq, Call.Refused]
      exact and_congr eq_comm eq_comm
    | ok bytes =>
      rw [settle_eq_error_iff, load_eq_error_iff, Program.unfit_bytes_iff, Call.Refused]
  | runShown n =>
    rw [call_runShown, Call.Refused]
    split
    case isTrue hn =>
      refine ⟨fun h => ?_, fun ⟨_, _, h⟩ => absurd hn (Int.not_lt.mpr h)⟩
      cases h
    case isFalse hn =>
      rw [Prod.mk.injEq, Except.error.injEq, and_iff_left (Int.not_lt.mp hn)]
      exact and_congr eq_comm eq_comm
  | press k => rw [call_press, settle_eq_error_iff, key_eq_error_iff, Call.Refused]
  | release k => rw [call_release, settle_eq_error_iff, key_eq_error_iff, Call.Refused]
  | readMemory start length =>
    rw [call_readMemory, settle_eq_error_iff, range_eq_error_iff, Call.Refused]
  | dumpMemory start stop width => rw [call_dumpMemory, settle_eq_error_iff, dump_eq_error_iff]
  | step | run n | runPeriod | tick | reset | table | halts | sketch on off =>
    refine ⟨fun h => ?_, fun h => h.2.elim⟩
    cases h

/-- **Calls fail for what is asked, and change nothing then.** In any session a call fails exactly
for the causes that the table gives for it, and a call that fails leaves machine, halts and log as
they were. Steps, runs, ticks and resets do not fail, whatever the machine does. Only a run with a
progress display does, from `2 ^ 63` steps on. -/
theorem call_error_iff (s : Session) (c : Call) :
    (∀ e, (s.call c).2 = .error e ↔ c.Refused e) ∧
    (∀ e, (s.call c).2 = .error e → (s.call c).1 = s) ∧
    ∀ n, ∀ c' ∈ [Call.step, .run n, .runPeriod, .tick, .reset],
      ∃ reply, (s.call c').2 = .ok reply := by
  have hboth (c : Call) (e : Failure) (h : (s.call c).2 = .error e) :
      (s.call c).1 = s ∧ c.Refused e :=
    call_eq_error_iff.mp (Prod.ext rfl h)
  refine ⟨fun e => ⟨fun h => (hboth c e h).2, fun he => ?_⟩, fun e h => (hboth c e h).1,
    fun n c' hc => ?_⟩
  · rw [call_eq_error_iff.mpr ⟨rfl, he⟩]
  · cases hreply : (s.call c').2 with
    | ok reply => exact ⟨reply, rfl⟩
    | error e =>
      have he := (hboth c' e hreply).2
      simp only [List.mem_cons, List.not_mem_nil, or_false] at hc
      rcases hc with rfl | rfl | rfl | rfl | rfl <;> exact he.elim

/-- Of a program that has a number that is no byte and is too long as well, the number is reported,
and a file that the system does not open is reported in the words of the system. The session has
halted by then, and can still be asked to step. -/
theorem call_error_iff_load :
    ∃ s₀, create { source := .constant 0 } plainJournal = .ok s₀ ∧
      let s := s₀.after [.load [0x00, 0x00], .run 2]
      let program : List Int := 256 :: List.replicate 3584 0
      let denied : Failure := .file 13 "Permission denied" "roms/pong.ch8"
      (Call.load program).Refused .programByte ∧
      s.call (.load program) = (s, .error .programByte) ∧
      s.call (.loadFile "roms/pong.ch8" (.error denied)) = (s, .error denied) ∧
      denied.message = "[Errno 13] Permission denied: 'roms/pong.ch8'" ∧
      ∃ reply, (s.call .step).2 = .ok reply := by
  refine ⟨_, rfl, ?_⟩
  intro s program denied
  clear_value s
  have hrefused : (Call.load program).Refused .programByte := ⟨256, List.mem_cons_self, by decide⟩
  obtain ⟨hiff, hkept, hstep⟩ := call_error_iff s (.load program)
  obtain ⟨hiff', hkept', -⟩ := call_error_iff s (.loadFile "roms/pong.ch8" (.error denied))
  have hload := (hiff _).mpr hrefused
  have hfile := (hiff' denied).mpr rfl
  refine ⟨hrefused, Prod.ext (hkept _ hload) hload, Prod.ext (hkept' _ hfile) hfile, ?_,
    hstep 0 .step List.mem_cons_self⟩
  decide +kernel

/-- A run of `2 ^ 63` steps fails if it has a progress display, and only then. -/
theorem call_error_of_shown :
    ∃ s₀, create { source := .constant 0 } plainJournal = .ok s₀ ∧
      let s := s₀.after [.load [0x00, 0x00]]
      (s.call (.runShown 0x8000000000000000)).2 = .error .stepCount ∧
      ∃ n, (s.call (.run 0x8000000000000000)).2 = .ok (.count n) := by
  refine ⟨_, rfl, ?_⟩
  intro s
  have hshown := (s.call_runShown 0x8000000000000000).trans (if_neg (Int.lt_irrefl _))
  exact ⟨congrArg Prod.snd hshown, (s.run 0x8000000000000000).2, rfl⟩

end Session

end Chip8
