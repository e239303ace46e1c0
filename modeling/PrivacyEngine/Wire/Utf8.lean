import Mathlib.Data.List.Basic

/-!
# UTF-8 validation and lossy decoding

A byte-at-a-time automaton for well-formed UTF-8.  `Utf8.valid` accepts exactly when the automaton
never refuses a byte and ends between characters; `Utf8.lossy` replaces every maximal ill-formed
subsequence by the encoding of U+FFFD.  A text is represented by its bytes throughout, so lossy
decoding is a function from bytes to bytes.  ASCII bytes are never part of a longer sequence: lossy
decoding copies them and works independently on the two sides of each.
-/

namespace Wire
namespace Utf8

/-- Position inside a character: the bytes already read, the range of the next byte, and how many
further continuation bytes follow it. -/
inductive State where
  | start
  | inside (seen : List UInt8) (low high : UInt8) (more : Nat)
  deriving DecidableEq

/-- The encoding of U+FFFD. -/
def replacement : List UInt8 := [0xEF, 0xBF, 0xBD]

/-- State after a first byte, or `none` when no character starts with it. -/
def first (b : UInt8) : Option State :=
  if b < 0x80 then some .start
  else if 0xC2 ≤ b ∧ b ≤ 0xDF then some (.inside [b] 0x80 0xBF 0)
  else if b = 0xE0 then some (.inside [b] 0xA0 0xBF 1)
  else if b = 0xED then some (.inside [b] 0x80 0x9F 1)
  else if 0xE1 ≤ b ∧ b ≤ 0xEF then some (.inside [b] 0x80 0xBF 1)
  else if b = 0xF0 then some (.inside [b] 0x90 0xBF 2)
  else if 0xF1 ≤ b ∧ b ≤ 0xF3 then some (.inside [b] 0x80 0xBF 2)
  else if b = 0xF4 then some (.inside [b] 0x80 0x8F 2)
  else none

/-- State after a continuation byte that fits. -/
def continued (seen : List UInt8) (b : UInt8) : Nat → State
  | 0 => .start
  | more + 1 => .inside (seen ++ [b]) 0x80 0xBF more

/-- Whether the bytes complete the current character and continue as well-formed UTF-8. -/
def validFrom : State → List UInt8 → Bool
  | .start, [] => true
  | .inside _ _ _ _, [] => false
  | .start, b :: rest =>
      match first b with
      | some state => validFrom state rest
      | none => false
  | .inside seen low high more, b :: rest =>
      if low ≤ b ∧ b ≤ high then validFrom (continued seen b more) rest else false

/-- Well-formed UTF-8. -/
def valid (s : List UInt8) : Bool := validFrom .start s

/-- Output for a byte read between characters: nothing while a longer character is open. -/
def emitFirst (b : UInt8) : List UInt8 :=
  match first b with
  | some .start => [b]
  | some (.inside _ _ _ _) => []
  | none => replacement

/-- State for a byte read between characters, restarting after a refused one. -/
def stateFirst (b : UInt8) : State := (first b).getD .start

/-- Lossy decoding from a state. -/
def lossyFrom : State → List UInt8 → List UInt8
  | .start, [] => []
  | .inside _ _ _ _, [] => replacement
  | .start, b :: rest => emitFirst b ++ lossyFrom (stateFirst b) rest
  | .inside seen low high more, b :: rest =>
      if low ≤ b ∧ b ≤ high then
        (if more = 0 then seen ++ [b] else []) ++ lossyFrom (continued seen b more) rest
      else
        replacement ++ (emitFirst b ++ lossyFrom (stateFirst b) rest)

/-- Replace every maximal ill-formed subsequence by U+FFFD. -/
def lossy (s : List UInt8) : List UInt8 := lossyFrom .start s

/-- An open character consists of non-ASCII bytes and accepts only non-ASCII bytes. -/
def State.WellFormed : State → Prop
  | .start => True
  | .inside seen low _ _ => seen ≠ [] ∧ (∀ b ∈ seen, 0x80 ≤ b) ∧ 0x80 ≤ low

theorem wellFormed_stateFirst (b : UInt8) : (stateFirst b).WellFormed := by
  unfold stateFirst first
  split_ifs with ascii <;>
    simp only [Option.getD_some, Option.getD_none, State.WellFormed, List.mem_singleton,
      forall_eq, ne_eq, List.cons_ne_self, not_false_eq_true, true_and] <;>
    exact ⟨UInt8.not_lt.mp ascii, by decide⟩

theorem wellFormed_continued {seen : List UInt8} {low b : UInt8}
    (high_seen : ∀ x ∈ seen, 0x80 ≤ x) (high_low : 0x80 ≤ low) (fits : low ≤ b) (more : Nat) :
    (continued seen b more).WellFormed := by
  cases more with
  | zero => trivial
  | succ more =>
      refine ⟨by simp, fun x x_mem => ?_, by decide⟩
      rcases List.mem_append.mp x_mem with old | new
      · exact high_seen x old
      · obtain rfl := List.mem_singleton.mp new
        exact UInt8.le_trans high_low fits

/-- Bytes still owed to the output when an ASCII byte or the end interrupts a character. -/
def State.flush : State → List UInt8
  | .start => []
  | .inside _ _ _ _ => replacement

theorem first_ascii {c : UInt8} (ascii : c < 0x80) : first c = some .start := by
  simp [first, ascii]

theorem lossyFrom_nil (state : State) : lossyFrom state [] = state.flush := by
  cases state <;> rfl

theorem lossyFrom_ascii {state : State} (wf : state.WellFormed) {c : UInt8} (ascii : c < 0x80)
    (rest : List UInt8) : lossyFrom state (c :: rest) = state.flush ++ c :: lossy rest := by
  cases state with
  | start => simp [lossyFrom, emitFirst, stateFirst, first_ascii ascii, State.flush, lossy]
  | inside seen low high more =>
      have below : ¬ (low ≤ c ∧ c ≤ high) := by
        rintro ⟨low_le, -⟩
        exact absurd (UInt8.le_trans wf.2.2 low_le) (UInt8.not_le.mpr ascii)
      simp [lossyFrom, below, emitFirst, stateFirst, first_ascii ascii, State.flush, lossy]

/-- Lossy decoding works independently on the two sides of an ASCII byte. -/
theorem lossyFrom_append_ascii {state : State} (wf : state.WellFormed) (front : List UInt8)
    {c : UInt8} (ascii : c < 0x80) (rest : List UInt8) :
    lossyFrom state (front ++ c :: rest) = lossyFrom state front ++ c :: lossy rest := by
  induction front generalizing state with
  | nil => rw [List.nil_append, lossyFrom_ascii wf ascii, lossyFrom_nil]
  | cons b front ih =>
      cases state with
      | start =>
          simp only [List.cons_append, lossyFrom]
          rw [ih (wellFormed_stateFirst b), List.append_assoc]
      | inside seen low high more =>
          simp only [List.cons_append, lossyFrom]
          split
          · rename_i fits
            rw [ih (wellFormed_continued wf.2.1 wf.2.2 fits.1 more), List.append_assoc]
          · rw [ih (wellFormed_stateFirst b)]
            simp only [List.append_assoc]

theorem lossy_append_ascii (front : List UInt8) {c : UInt8} (ascii : c < 0x80)
    (rest : List UInt8) : lossy (front ++ c :: rest) = lossy front ++ c :: lossy rest :=
  @lossyFrom_append_ascii .start trivial front _ ascii rest

theorem validFrom_ascii {state : State} (wf : state.WellFormed) {c : UInt8} (ascii : c < 0x80)
    (rest : List UInt8) : validFrom state (c :: rest) = (validFrom state [] && valid rest) := by
  cases state with
  | start => simp [validFrom, first_ascii ascii, valid]
  | inside seen low high more =>
      have below : ¬ (low ≤ c ∧ c ≤ high) := by
        rintro ⟨low_le, -⟩
        exact absurd (UInt8.le_trans wf.2.2 low_le) (UInt8.not_le.mpr ascii)
      simp [validFrom, below]

/-- Well-formedness is decided independently on the two sides of an ASCII byte. -/
theorem validFrom_append_ascii {state : State} (wf : state.WellFormed) (front : List UInt8)
    {c : UInt8} (ascii : c < 0x80) (rest : List UInt8) :
    validFrom state (front ++ c :: rest) = (validFrom state front && valid rest) := by
  induction front generalizing state with
  | nil => exact validFrom_ascii wf ascii rest
  | cons b front ih =>
      cases state with
      | start =>
          have wf' := wellFormed_stateFirst b
          simp only [List.cons_append, validFrom]
          cases opens : first b with
          | none => rfl
          | some next =>
              rw [stateFirst, opens] at wf'
              exact ih wf'
      | inside seen low high more =>
          simp only [List.cons_append, validFrom]
          split
          · rename_i fits
            exact ih (wellFormed_continued wf.2.1 wf.2.2 fits.1 more)
          · rfl

theorem valid_append_ascii (front : List UInt8) {c : UInt8} (ascii : c < 0x80)
    (rest : List UInt8) : valid (front ++ c :: rest) = (valid front && valid rest) :=
  @validFrom_append_ascii .start trivial front _ ascii rest

@[simp] theorem lossy_nil : lossy [] = [] := rfl

theorem lossy_cons_ascii {c : UInt8} (ascii : c < 0x80) (rest : List UInt8) :
    lossy (c :: rest) = c :: lossy rest :=
  lossy_append_ascii [] ascii rest

/-- An ASCII byte behind a block of non-ASCII bytes lies in what follows the block. -/
theorem append_eq_append_ascii {block tail a b : List UInt8} {c : UInt8}
    (high : ∀ x ∈ block, 0x80 ≤ x) (ascii : c < 0x80) (eq : block ++ tail = a ++ c :: b) :
    ∃ a', a = block ++ a' ∧ tail = a' ++ c :: b := by
  obtain ⟨a', a_eq, tail_eq⟩ | ⟨c', block_eq, rest_eq⟩ := List.append_eq_append_iff.mp eq
  · exact ⟨a', a_eq, tail_eq⟩
  · cases c' with
    | nil => exact ⟨[], by simpa using block_eq.symm, by simpa using rest_eq.symm⟩
    | cons d c' =>
        obtain ⟨rfl, -⟩ := List.cons.inj rest_eq
        have := high c (by rw [block_eq]; simp)
        exact absurd this (UInt8.not_le.mpr ascii)

theorem high_replacement : ∀ x ∈ replacement, (0x80 : UInt8) ≤ x := by decide +kernel

/-- Between characters, an ASCII byte of the output is the byte just read or comes later. -/
theorem emitFirst_append_ascii {x c : UInt8} {tail a b : List UInt8} (ascii : c < 0x80)
    (eq : emitFirst x ++ tail = a ++ c :: b) :
    (x = c ∧ a = [] ∧ stateFirst x = .start ∧ tail = b) ∨
      ∃ a', a = emitFirst x ++ a' ∧ tail = a' ++ c :: b := by
  by_cases x_ascii : x < 0x80
  · have emit : emitFirst x = [x] := by simp [emitFirst, first_ascii x_ascii]
    rw [emit] at eq ⊢
    cases a with
    | nil =>
        obtain ⟨rfl, rfl⟩ := List.cons.inj eq
        exact Or.inl ⟨rfl, rfl, by simp [stateFirst, first_ascii x_ascii], rfl⟩
    | cons y a =>
        obtain ⟨rfl, rest⟩ := List.cons.inj eq
        exact Or.inr ⟨a, rfl, rest⟩
  · have high : ∀ y ∈ emitFirst x, 0x80 ≤ y := by
      unfold emitFirst
      split
      · intro y y_mem
        rw [List.mem_singleton.mp y_mem]
        exact UInt8.not_lt.mp x_ascii
      · simp
      · exact high_replacement
    exact Or.inr (append_eq_append_ascii high ascii eq)

/-- Every ASCII byte of the output is an ASCII byte of the input, with the two sides decoded
independently. -/
theorem lossyFrom_reflects_ascii {state : State} (wf : state.WellFormed) {s a b : List UInt8}
    {c : UInt8} (ascii : c < 0x80) (eq : lossyFrom state s = a ++ c :: b) :
    ∃ a₀ b₀, s = a₀ ++ c :: b₀ ∧ a = lossyFrom state a₀ ∧ b = lossy b₀ := by
  induction s generalizing state a with
  | nil =>
      have mem : c ∈ state.flush := by
        rw [← lossyFrom_nil, eq]
        simp
      cases state with
      | start => cases mem
      | inside => exact absurd (high_replacement c mem) (UInt8.not_le.mpr ascii)
  | cons x s ih =>
      -- the byte is read between characters, possibly after a refused open character
      have restart : ∀ {a' : List UInt8}, emitFirst x ++ lossyFrom (stateFirst x) s = a' ++ c :: b →
          ∃ a₀ b₀, x :: s = a₀ ++ c :: b₀ ∧ b = lossy b₀ ∧
            ((a₀ = [] ∧ a' = []) ∨
              ∃ a₁, a₀ = x :: a₁ ∧ a' = emitFirst x ++ lossyFrom (stateFirst x) a₁) := by
        intro a' eq'
        rcases emitFirst_append_ascii ascii eq' with ⟨rfl, rfl, fresh, rfl⟩ | ⟨a₁, rfl, rest⟩
        · exact ⟨[], s, rfl, by rw [fresh, lossy], Or.inl ⟨rfl, rfl⟩⟩
        · obtain ⟨a₀, b₀, rfl, rfl, rfl⟩ := ih (wellFormed_stateFirst x) rest
          exact ⟨x :: a₀, b₀, rfl, rfl, Or.inr ⟨a₀, rfl, rfl⟩⟩
      cases state with
      | start =>
          obtain ⟨a₀, b₀, split, rfl, ⟨rfl, rfl⟩ | ⟨a₁, rfl, rfl⟩⟩ := restart eq
          · exact ⟨[], b₀, split, rfl, rfl⟩
          · exact ⟨x :: a₁, b₀, split, rfl, rfl⟩
      | inside seen low high more =>
          rw [lossyFrom] at eq
          split at eq
          · rename_i fits
            have x_high : 0x80 ≤ x := UInt8.le_trans wf.2.2 fits.1
            have block_high : ∀ y ∈ (if more = 0 then seen ++ [x] else []), 0x80 ≤ y := by
              intro y y_mem
              split at y_mem
              · rcases List.mem_append.mp y_mem with old | new
                · exact wf.2.1 y old
                · rw [List.mem_singleton.mp new]
                  exact x_high
              · cases y_mem
            obtain ⟨a', rfl, rest⟩ := append_eq_append_ascii block_high ascii eq
            obtain ⟨a₀, b₀, rfl, rfl, rfl⟩ :=
              ih (wellFormed_continued wf.2.1 wf.2.2 fits.1 more) rest
            exact ⟨x :: a₀, b₀, rfl, by rw [lossyFrom, if_pos fits], rfl⟩
          · rename_i misfit
            obtain ⟨a', rfl, rest⟩ := append_eq_append_ascii high_replacement ascii eq
            obtain ⟨a₀, b₀, split, rfl, ⟨rfl, rfl⟩ | ⟨a₁, rfl, rfl⟩⟩ := restart rest
            · exact ⟨[], b₀, split, by simp [lossyFrom_nil, State.flush], rfl⟩
            · exact ⟨x :: a₁, b₀, split, by rw [lossyFrom, if_neg misfit], rfl⟩

theorem lossy_reflects_ascii {s a b : List UInt8} {c : UInt8} (ascii : c < 0x80)
    (eq : lossy s = a ++ c :: b) : ∃ a₀ b₀, s = a₀ ++ c :: b₀ ∧ a = lossy a₀ ∧ b = lossy b₀ :=
  @lossyFrom_reflects_ascii .start trivial s a b c ascii eq

theorem lossyFrom_inside_ne_nil {seen : List UInt8} (seen_ne : seen ≠ []) (low high : UInt8)
    (more : Nat) (s : List UInt8) : lossyFrom (.inside seen low high more) s ≠ [] := by
  induction s generalizing seen low high more with
  | nil => simp [lossyFrom, replacement]
  | cons x s ih =>
      rw [lossyFrom]
      split
      · cases more with
        | zero => simp
        | succ more => simpa [continued] using @ih (seen ++ [x]) (by simp) 0x80 0xBF more
      · simp [replacement]

theorem lossy_eq_nil {s : List UInt8} (empty : lossy s = []) : s = [] := by
  cases s with
  | nil => rfl
  | cons x s =>
      simp only [lossy, lossyFrom, List.append_eq_nil_iff] at empty
      obtain ⟨emit, rest⟩ := empty
      have wf := wellFormed_stateFirst x
      revert emit rest wf
      unfold emitFirst stateFirst
      cases first x with
      | none => simp [replacement]
      | some state =>
          cases state with
          | start => simp
          | inside seen low high more =>
              intro _ rest wf
              exact absurd rest (lossyFrom_inside_ne_nil wf.1 _ _ _ _)

/-- A text whose lossy decoding begins with an ASCII byte begins with that byte. -/
theorem lossy_reflects_cons {s t : List UInt8} {c : UInt8} (ascii : c < 0x80)
    (eq : lossy s = c :: t) : ∃ rest, s = c :: rest ∧ t = lossy rest := by
  obtain ⟨front, rest, rfl, front_eq, rfl⟩ := lossy_reflects_ascii (a := []) ascii eq
  obtain rfl := lossy_eq_nil front_eq.symm
  exact ⟨rest, rfl, rfl⟩

/-! ## Well-formed texts -/

/-- Bytes of the open character. -/
def State.seen : State → List UInt8
  | .start => []
  | .inside seen _ _ _ => seen

theorem seen_of_first {b low high : UInt8} {seen : List UInt8} {more : Nat}
    (opens : first b = some (.inside seen low high more)) : seen = [b] := by
  unfold first at opens
  split_ifs at opens <;> cases opens <;> rfl

/-- Decoding keeps a well-formed text. -/
theorem lossyFrom_of_validFrom {state : State} {s : List UInt8} (valid : validFrom state s = true) :
    lossyFrom state s = state.seen ++ s := by
  induction s generalizing state with
  | nil =>
      cases state with
      | start => rfl
      | inside seen low high more => cases valid
  | cons b s ih =>
      cases state with
      | start =>
          rw [validFrom] at valid
          cases opens : first b with
          | none => simp [opens] at valid
          | some next =>
              rw [opens] at valid
              have later := ih valid
              cases next with
              | start => simp [lossyFrom, emitFirst, stateFirst, opens, later, State.seen]
              | inside seen low high more =>
                  obtain rfl := seen_of_first opens
                  simpa [lossyFrom, emitFirst, stateFirst, opens, State.seen] using later
      | inside seen low high more =>
          rw [validFrom] at valid
          split at valid
          · rename_i fits
            rw [lossyFrom, if_pos fits, ih valid]
            cases more <;> simp [continued, State.seen]
          · cases valid

theorem lossy_of_valid {s : List UInt8} (well_formed : valid s = true) : lossy s = s :=
  lossyFrom_of_validFrom well_formed

/-- A state is open on the bytes that lead to it. -/
def State.Opened (state : State) : Prop :=
  ∀ rest, validFrom .start (state.seen ++ rest) = validFrom state rest

theorem opened_stateFirst (b : UInt8) : (stateFirst b).Opened := by
  intro rest
  cases opens : first b with
  | none => simp [stateFirst, opens, State.seen]
  | some next =>
      cases next with
      | start => simp [stateFirst, opens, State.seen]
      | inside seen low high more =>
          obtain rfl := seen_of_first opens
          simp [stateFirst, opens, State.seen, validFrom]

theorem opened_continued {seen : List UInt8} {low high b : UInt8} {more : Nat}
    (opened : (State.inside seen low high more).Opened) (fits : low ≤ b ∧ b ≤ high) :
    (continued seen b more).Opened := by
  intro rest
  cases more with
  | zero => rfl
  | succ more =>
      have reads := opened (b :: rest)
      rw [validFrom, if_pos fits] at reads
      simpa [continued, State.seen] using reads

theorem validFrom_replacement (rest : List UInt8) :
    validFrom .start (replacement ++ rest) = validFrom .start rest := rfl

theorem validFrom_emitFirst (b : UInt8) (rest : List UInt8) :
    validFrom .start (emitFirst b ++ rest) = validFrom .start rest := by
  unfold emitFirst
  split
  · rename_i opens
    rw [List.singleton_append, validFrom, opens]
  · rfl
  · exact validFrom_replacement rest

/-- What decoding yields is well-formed. -/
theorem valid_lossyFrom {state : State} (opened : state.Opened) (s : List UInt8) :
    validFrom .start (lossyFrom state s) = true := by
  induction s generalizing state with
  | nil => cases state <;> rfl
  | cons b s ih =>
      have restarted : validFrom .start (emitFirst b ++ lossyFrom (stateFirst b) s) = true := by
        rw [validFrom_emitFirst]
        exact ih (opened_stateFirst b)
      cases state with
      | start => exact restarted
      | inside seen low high more =>
          rw [lossyFrom]
          split
          · rename_i fits
            have later := ih (opened_continued opened fits)
            cases more with
            | zero =>
                have reads := opened (b :: lossyFrom .start s)
                rw [validFrom, if_pos fits, State.seen] at reads
                simpa [continued, reads] using later
            | succ more => simpa using later
          · rwa [validFrom_replacement]

theorem valid_lossy (s : List UInt8) : valid (lossy s) = true :=
  @valid_lossyFrom .start (fun _ => rfl) s

@[simp] theorem lossy_lossy (s : List UInt8) : lossy (lossy s) = lossy s :=
  lossy_of_valid (valid_lossy s)

theorem lossy_eq_self_iff {s : List UInt8} : lossy s = s ↔ valid s = true :=
  ⟨fun same => same ▸ valid_lossy s, lossy_of_valid⟩

end Utf8
end Wire
