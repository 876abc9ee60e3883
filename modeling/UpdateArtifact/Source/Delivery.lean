import UpdateArtifact.Source.Transfer

/-!
# What a pass delivers

A pass delivers the bytes before its first failure, in whatever pieces they are
read.  A transfer hands exactly these bytes on, up to the number wanted, and
meets the failure only if it wanted more.
-/

namespace UpdateArtifact

namespace Pass

/-- The bytes before the first failure. -/
def delivered : Pass → Bytes
  | [] => []
  | .data bytes :: rest => bytes ++ delivered rest
  | .interrupt :: rest => delivered rest
  | .fail _ _ :: _ => []

def failure? : Pass → Option IoError
  | [] => none
  | .data _ :: rest => failure? rest
  | .interrupt :: rest => failure? rest
  | .fail error _ :: _ => some error

theorem delivered_read (limit : Nat) (pass : Pass) :
    ∀ bytes, (pass.read limit).1 = .chunk bytes →
      pass.delivered = bytes ++ (pass.read limit).2.delivered ∧
        pass.failure? = (pass.read limit).2.failure? := by
  induction pass with
  | nil => simp [read, delivered, failure?]
  | cons event rest ih =>
      intro bytes found
      cases event with
      | data held =>
          by_cases empty : held = []
          · simp only [read, empty, if_true] at found ⊢
            simpa [delivered, failure?] using ih bytes found
          · simp only [read, empty, if_false, Reading.chunk.injEq] at found ⊢
            subst found
            refine ⟨?_, rfl⟩
            simp only [delivered]
            rw [← List.append_assoc, List.take_append_drop]
      | interrupt => simp [read] at found
      | fail error lasting => simp [read] at found

theorem length_le_of_read (limit : Nat) (pass : Pass) :
    ∀ bytes, (pass.read limit).1 = .chunk bytes → bytes.length ≤ limit := by
  induction pass with
  | nil =>
      intro bytes found
      simp only [read, Reading.chunk.injEq] at found
      simp [← found]
  | cons event rest ih =>
      intro bytes found
      cases event with
      | data held =>
          by_cases empty : held = []
          · simp only [read, empty, if_true] at found
            exact ih bytes found
          · simp only [read, empty, if_false, Reading.chunk.injEq] at found
            rw [← found, List.length_take]
            omega
      | interrupt => simp [read] at found
      | fail error lasting => simp [read] at found

theorem delivered_of_read_end (limit : Nat) (positive : 0 < limit) (pass : Pass)
    (ended : (pass.read limit).1 = .chunk []) :
    pass.delivered = [] ∧ pass.failure? = none := by
  induction pass with
  | nil => simp [delivered, failure?]
  | cons event rest ih =>
      cases event with
      | data held =>
          by_cases empty : held = []
          · simp only [read, empty, if_true] at ended
            simpa [delivered, failure?, empty] using ih ended
          · simp only [read, empty, if_false, Reading.chunk.injEq, List.take_eq_nil_iff,
              or_false] at ended
            omega
      | interrupt => simp [read] at ended
      | fail error lasting => simp [read] at ended

theorem delivered_of_read_interrupted (limit : Nat) (pass : Pass)
    (interrupted : (pass.read limit).1 = .interrupted) :
    pass.delivered = (pass.read limit).2.delivered ∧
      pass.failure? = (pass.read limit).2.failure? := by
  induction pass with
  | nil => simp [read] at interrupted
  | cons event rest ih =>
      cases event with
      | data held =>
          by_cases empty : held = []
          · simp only [read, empty, if_true] at interrupted ⊢
            simpa [delivered, failure?] using ih interrupted
          · simp [read, empty] at interrupted
      | interrupt => simp [read, delivered, failure?]
      | fail error lasting => simp [read] at interrupted

/-- A read fails with the first failure, once everything before it came. -/
theorem delivered_of_read_failed (limit : Nat) (pass : Pass) (error : IoError)
    (failed : (pass.read limit).1 = .failed error) :
    pass.delivered = [] ∧ pass.failure? = some error := by
  induction pass with
  | nil => simp [read] at failed
  | cons event rest ih =>
      cases event with
      | data held =>
          by_cases empty : held = []
          · simp only [read, empty, if_true] at failed
            simpa [delivered, failure?, empty] using ih failed
          · simp [read, empty] at failed
      | interrupt => simp [read] at failed
      | fail other lasting =>
          simp only [read, Reading.failed.injEq] at failed
          simp [delivered, failure?, failed]

end Pass

namespace Source

/-- The bytes a transfer hands on. -/
def share (wanted : Option Nat) (delivered : Bytes) : Bytes :=
  wanted.elim delivered (delivered.take ·)

/-- The failure a transfer meets: none if enough bytes come before it. -/
def met (wanted : Option Nat) (pass : Pass) : Option IoError :=
  match wanted with
  | none => pass.failure?
  | some count => if count ≤ pass.delivered.length then none else pass.failure?

theorem share_append (wanted : Option Nat) (first rest : Bytes)
    (room : ∀ count, wanted = some count → first.length ≤ count) :
    share wanted (first ++ rest) = first ++ share (wanted.map (· - first.length)) rest := by
  cases wanted with
  | none => rfl
  | some count =>
      simp only [share, Option.map_some, Option.elim_some]
      rw [List.take_append, List.take_of_length_le (room count rfl)]

theorem length_le_allowance {block : Nat} {wanted : Option Nat} {length : Nat}
    (allowed : length ≤ allowance block wanted) :
    ∀ count, wanted = some count → length ≤ count := by
  intro count same
  simp only [same, allowance] at allowed
  omega

theorem met_of_failure_none {wanted : Option Nat} {pass : Pass}
    (healthy : pass.failure? = none) : met wanted pass = none := by
  cases wanted with
  | none => exact healthy
  | some count => simp [met, healthy]

/-- Whatever is done with the pieces, if pieces in a row count as one piece, then
a transfer comes to the same as handing on its whole share at once. -/
theorem transfer_eq {σ : Type} (block : Nat) (take : σ → Bytes → σ) (wanted : Option Nat)
    (state : σ) (source : Source) (nothing : ∀ state, take state [] = state)
    (joined : ∀ state first second,
      take (take state first) second = take state (first ++ second)) :
    (source.transfer block take wanted state).1 =
        take state (share wanted source.ahead.delivered) ∧
      (source.transfer block take wanted state).2.1 = met wanted source.ahead := by
  fun_induction transfer block take wanted state source with
  | case1 state source => simp [share, met, nothing]
  | case2 wanted state source wants next outcome =>
      have reading : (source.ahead.read (allowance block wanted)).1 = .chunk [] := by
        rw [← read_reading, outcome]
      obtain ⟨empty, healthy⟩ :=
        Pass.delivered_of_read_end _ (allowance_pos wants) _ reading
      have none : share wanted [] = [] := by cases wanted <;> simp [share]
      exact ⟨by rw [empty, none, nothing], (met_of_failure_none healthy).symm⟩
  | case3 wanted state source wants byte rest next outcome ih =>
      have reading :
          (source.ahead.read (allowance block wanted)).1 = .chunk (byte :: rest) := by
        rw [← read_reading, outcome]
      have following : (source.ahead.read (allowance block wanted)).2 = next.ahead := by
        rw [← ahead_read, outcome]
      obtain ⟨delivered, failure⟩ := Pass.delivered_read _ _ _ reading
      rw [following] at delivered failure
      have room := length_le_allowance (Pass.length_le_of_read _ _ _ reading)
      obtain ⟨taken, fault⟩ := ih
      constructor
      · rw [taken, joined, delivered, share_append _ _ _ room]
        rfl
      · rw [fault]
        cases wanted with
        | none => exact failure.symm
        | some count =>
            have fits := room count rfl
            simp only [List.length_cons] at fits
            simp only [met, Option.map_some, delivered, failure, List.length_append,
              List.length_cons]
            have same : count - (rest.length + 1) ≤ next.ahead.delivered.length ↔
                count ≤ rest.length + 1 + next.ahead.delivered.length := by omega
            simp only [same]
  | case4 wanted state source wants next outcome ih =>
      have reading : (source.ahead.read (allowance block wanted)).1 = .interrupted := by
        rw [← read_reading, outcome]
      have following : (source.ahead.read (allowance block wanted)).2 = next.ahead := by
        rw [← ahead_read, outcome]
      obtain ⟨delivered, failure⟩ := Pass.delivered_of_read_interrupted _ _ reading
      rw [following] at delivered failure
      obtain ⟨taken, fault⟩ := ih
      refine ⟨by rw [taken, delivered], ?_⟩
      rw [fault]
      cases wanted with
      | none => exact failure.symm
      | some count => simp only [met, delivered, failure]
  | case5 wanted state source wants error next outcome =>
      have reading : (source.ahead.read (allowance block wanted)).1 = .failed error := by
        rw [← read_reading, outcome]
      obtain ⟨empty, failure⟩ := Pass.delivered_of_read_failed _ _ _ reading
      have none : share wanted [] = [] := by cases wanted <;> simp [share]
      refine ⟨by rw [empty, none, nothing], ?_⟩
      cases wanted with
      | none => exact failure.symm
      | some count =>
          have : count ≠ 0 := fun zero => wants (by rw [zero])
          simp [met, empty, failure, this]

/-- A source that delivers this content in every pass, and can always be rewound. -/
def Delivers (source : Source) (content : Bytes) : Prop :=
  (∀ pass ∈ source.passes, pass.delivered = content ∧ pass.failure? = none) ∧
    (source.passes = [] → content = []) ∧
    ∀ refused ∈ source.failingSeeks, refused.1 ≤ source.seeks

end Source

end UpdateArtifact
