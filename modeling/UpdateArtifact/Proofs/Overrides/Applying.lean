import UpdateArtifact.Options.Overrides

/-!
# Overrides one after another

Each option looks after itself: the last override that sets it decides, and an option that
none of them sets stays as it was.  A block size of zero sets nothing, so that it neither
wins over an earlier size nor hides that size when two overrides are made into one.
-/

namespace UpdateArtifact

namespace Overrides

/-- A level beyond the highest is set to the highest. -/
def SetsLevel (override : Overrides) (level : Nat) : Prop :=
  ∃ asked, override.compressionLevel = some asked ∧ level = min asked 9

def SetsBlockSize (override : Overrides) (size : Nat) : Prop :=
  override.readBlockSize = some size ∧ 0 < size

def SetsOwner (override : Overrides) (name : String) : Prop :=
  override.ownerName = some name

def SetsVersion (override : Overrides) (version : Nat) : Prop :=
  override.formatVersion = some version

/-- An override sets an option to one value at most. -/
def Single {α : Type} (Sets : Overrides → α → Prop) : Prop :=
  ∀ override one other, Sets override one → Sets override other → one = other

theorem single_level : Single SetsLevel := by
  rintro override one other ⟨asked, same, rfl⟩ ⟨again, repeated, rfl⟩
  rw [same, Option.some.injEq] at repeated
  rw [repeated]

theorem single_blockSize : Single SetsBlockSize :=
  fun _ _ _ one other => Option.some.inj (one.1.symm.trans other.1)

theorem single_owner : Single SetsOwner :=
  fun _ _ _ one other => Option.some.inj (one.symm.trans other)

theorem single_version : Single SetsVersion :=
  fun _ _ _ one other => Option.some.inj (one.symm.trans other)

/-! ## The last one that sets an option -/

/-- What becomes of an option: it gets the value from the last override that sets it, and
keeps its own if there is none. -/
inductive LastSet {α : Type} (Sets : Overrides → α → Prop) (initial : α)
    (overrides : List Overrides) : α → Prop where
  | kept : (∀ override ∈ overrides, ∀ value, ¬ Sets override value) →
      LastSet Sets initial overrides initial
  | set {before after : List Overrides} {last : Overrides} {value : α} :
      overrides = before ++ last :: after → Sets last value →
      (∀ later ∈ after, ∀ other, ¬ Sets later other) →
      LastSet Sets initial overrides value

namespace LastSet

variable {α : Type} {Sets : Overrides → α → Prop} {initial middle final : α}

section

variable {first : Overrides} {rest : List Overrides}

theorem of_sets (sets : Sets first middle) (run : LastSet Sets middle rest final) :
    LastSet Sets initial (first :: rest) final := by
  cases run with
  | kept unset =>
      exact .set (List.nil_append _).symm sets unset
  | set split later unset =>
      rw [split, ← List.cons_append]
      exact .set rfl later unset

theorem of_unset (unset : ∀ value, ¬ Sets first value) (run : LastSet Sets initial rest final) :
    LastSet Sets initial (first :: rest) final := by
  cases run with
  | kept others =>
      apply LastSet.kept
      exact List.forall_mem_cons.mpr ⟨unset, others⟩
  | set split sets others =>
      rw [split, ← List.cons_append]
      exact .set rfl sets others

end

/-- If none behind the last override sets the option, then one from there on that does set
it is the last override itself. -/
private theorem same_last {last other : Overrides} {after between rest : List Overrides}
    {value : α} (split : last :: after = between ++ other :: rest)
    (unset : ∀ later ∈ after, ∀ value, ¬ Sets later value) (sets : Sets other value) :
    last = other := by
  cases between with
  | nil => exact (List.cons.inj split).1
  | cons head between =>
      have behind : other ∈ after := by
        rw [(List.cons.inj split).2]
        exact List.mem_append_right _ List.mem_cons_self
      exact (unset other behind value sets).elim

theorem unique (single : Single Sets) {overrides : List Overrides} {one other : α}
    (left : LastSet Sets initial overrides one) (right : LastSet Sets initial overrides other) :
    one = other := by
  cases left with
  | kept unset =>
      cases right with
      | kept => rfl
      | set split sets =>
          subst split
          exact (unset _ (List.mem_append_right _ List.mem_cons_self) _ sets).elim
  | @set before after last _ split sets unset =>
      subst split
      cases right with
      | kept others => exact (others _ (List.mem_append_right _ List.mem_cons_self) _ sets).elim
      | @set front back latest _ split otherSets otherUnset =>
          -- One of the two lies at the other or behind it.
          have same : last = latest := by
            rcases List.append_eq_append_iff.mp split with ⟨between, _, cut⟩ | ⟨between, _, cut⟩
            · exact same_last cut unset otherSets
            · exact (same_last cut otherUnset sets).symm
          subst same
          exact single _ _ _ sets otherSets

end LastSet

/-! ## Two overrides as one -/

/-- An override sets an option as the later of two does, and as the earlier one does where
the later has no effect on it. -/
def LaterWins {α : Type} (Sets : Overrides → α → Prop) (earlier later merged : Overrides) :
    Prop :=
  ∀ value, Sets merged value ↔
    Sets later value ∨ (∀ other, ¬ Sets later other) ∧ Sets earlier value

/-- An override that stands for two, for every option. -/
structure Merges (earlier later merged : Overrides) : Prop where
  level : LaterWins SetsLevel earlier later merged
  blockSize : LaterWins SetsBlockSize earlier later merged
  owner : LaterWins SetsOwner earlier later merged
  version : LaterWins SetsVersion earlier later merged

def merge (earlier later : Overrides) : Overrides :=
  { compressionLevel := later.compressionLevel.or earlier.compressionLevel
    readBlockSize := (later.readBlockSize.filter (0 < ·)).or earlier.readBlockSize
    ownerName := later.ownerName.or earlier.ownerName
    formatVersion := later.formatVersion.or earlier.formatVersion }

theorem merges_merge (earlier later : Overrides) : Merges earlier later (earlier.merge later) := by
  constructor
  case level =>
    intro level
    cases asked : later.compressionLevel <;> simp [SetsLevel, merge, asked]
  case blockSize =>
    intro size
    cases asked : later.readBlockSize <;>
      simp [SetsBlockSize, merge, asked, or_and_right, and_assoc]
  case owner =>
    intro name
    cases asked : later.ownerName <;> simp [SetsOwner, merge, asked]
  case version =>
    intro version
    cases asked : later.formatVersion <;> simp [SetsVersion, merge, asked]

theorem LaterWins.self {α : Type} (Sets : Overrides → α → Prop) (override : Overrides) :
    LaterWins Sets override override override := by
  intro value
  constructor
  · exact Or.inl
  · rintro (sets | ⟨_, sets⟩) <;> exact sets

theorem Merges.self (override : Overrides) : Merges override override override :=
  { level := .self SetsLevel override
    blockSize := .self SetsBlockSize override
    owner := .self SetsOwner override
    version := .self SetsVersion override }

end Overrides

namespace BuildOptions

open Overrides

/-- The options after several overrides, one applied after another. -/
def applyAll (options : BuildOptions) (overrides : List Overrides) : BuildOptions :=
  overrides.foldl apply options

/-- An override gives the option the value that it sets, and leaves it alone if it sets none. -/
def Follows {α : Type} (option : BuildOptions → α) (Sets : Overrides → α → Prop) : Prop :=
  ∀ options override, Sets override (option (options.apply override)) ∨
    (∀ value, ¬ Sets override value) ∧ option (options.apply override) = option options

theorem follows_level : Follows compressionLevel SetsLevel := by
  intro options override
  cases asked : override.compressionLevel with
  | none =>
      right
      simp [SetsLevel, apply, asked]
  | some level =>
      left
      exact ⟨level, asked, by simp [apply, asked, highestLevel]⟩

theorem follows_blockSize : Follows readBlockSize SetsBlockSize := by
  intro options override
  cases kept : override.readBlockSize.filter (0 < ·) with
  | none =>
      right
      refine ⟨?_, by simp only [apply, kept, Option.getD_none]⟩
      rintro size ⟨asked, positive⟩
      simp only [asked, Option.filter_some, positive, decide_true, if_true] at kept
      cases kept
  | some size =>
      left
      obtain ⟨asked, positive⟩ := Option.filter_eq_some_iff.mp kept
      have applied : (options.apply override).readBlockSize = size := by
        simp only [apply, kept, Option.getD_some]
      rw [applied]
      exact ⟨asked, of_decide_eq_true positive⟩

theorem follows_owner : Follows ownerName SetsOwner := by
  intro options override
  cases asked : override.ownerName <;> simp [SetsOwner, apply, asked]

theorem follows_version : Follows formatVersion SetsVersion := by
  intro options override
  cases asked : override.formatVersion <;> simp [SetsVersion, apply, asked]

section

variable {α : Type} {option : BuildOptions → α} {Sets : Overrides → α → Prop}

/-- Where one override follows the rule, so does a run of them: the first one is followed by
a run that starts from what it leaves. -/
theorem Follows.lastSet (follows : Follows option Sets) (options : BuildOptions)
    (overrides : List Overrides) :
    LastSet Sets (option options) overrides (option (options.applyAll overrides)) := by
  induction overrides generalizing options with
  | nil =>
      apply LastSet.kept
      intro override member
      cases member
  | cons first rest ih =>
      have run := ih (options.apply first)
      rcases follows options first with sets | ⟨unset, same⟩
      · exact .of_sets sets run
      · rw [same] at run
        exact .of_unset unset run

theorem Follows.eq_of_sets (follows : Follows option Sets) (single : Single Sets)
    {override : Overrides} {value : α} (sets : Sets override value) (options : BuildOptions) :
    option (options.apply override) = value := by
  rcases follows options override with applied | ⟨unset, _⟩
  · exact single _ _ _ applied sets
  · exact (unset value sets).elim

theorem Follows.eq_of_laterWins (follows : Follows option Sets) (single : Single Sets)
    {earlier later merged : Overrides} (wins : LaterWins Sets earlier later merged)
    (options : BuildOptions) :
    option (options.apply merged) = option ((options.apply earlier).apply later) := by
  rcases follows (options.apply earlier) later with sets | ⟨laterUnset, kept⟩
  · exact follows.eq_of_sets single ((wins _).mpr (.inl sets)) options
  · rw [kept]
    rcases follows options earlier with sets | ⟨earlierUnset, same⟩
    · exact follows.eq_of_sets single ((wins _).mpr (.inr ⟨laterUnset, sets⟩)) options
    · rw [same]
      rcases follows options merged with sets | ⟨_, untouched⟩
      · rcases (wins _).mp sets with sets | ⟨_, sets⟩
        · exact (laterUnset _ sets).elim
        · exact (earlierUnset _ sets).elim
      · exact untouched

end

theorem eq_of_options {one other : BuildOptions}
    (level : one.compressionLevel = other.compressionLevel)
    (blockSize : one.readBlockSize = other.readBlockSize)
    (owner : one.ownerName = other.ownerName)
    (version : one.formatVersion = other.formatVersion) : one = other := by
  cases one
  cases other
  simp only at level blockSize owner version
  rw [level, blockSize, owner, version]

/-- Options that each have the value of the last override that sets them, or else the one
they had.  Each is judged by itself, without a look at the others. -/
structure Settled (options : BuildOptions) (overrides : List Overrides) (final : BuildOptions) :
    Prop where
  level : LastSet SetsLevel options.compressionLevel overrides final.compressionLevel
  blockSize : LastSet SetsBlockSize options.readBlockSize overrides final.readBlockSize
  owner : LastSet SetsOwner options.ownerName overrides final.ownerName
  version : LastSet SetsVersion options.formatVersion overrides final.formatVersion

theorem settled_applyAll (options : BuildOptions) (overrides : List Overrides) :
    Settled options overrides (options.applyAll overrides) :=
  { level := follows_level.lastSet options overrides
    blockSize := follows_blockSize.lastSet options overrides
    owner := follows_owner.lastSet options overrides
    version := follows_version.lastSet options overrides }

theorem Settled.unique {options one other : BuildOptions} {overrides : List Overrides}
    (left : Settled options overrides one) (right : Settled options overrides other) :
    one = other := by
  apply eq_of_options
  · exact left.level.unique single_level right.level
  · exact left.blockSize.unique single_blockSize right.blockSize
  · exact left.owner.unique single_owner right.owner
  · exact left.version.unique single_version right.version

theorem apply_of_merges {earlier later merged : Overrides}
    (merges : Merges earlier later merged) (options : BuildOptions) :
    options.apply merged = (options.apply earlier).apply later := by
  apply eq_of_options
  · exact follows_level.eq_of_laterWins single_level merges.level options
  · exact follows_blockSize.eq_of_laterWins single_blockSize merges.blockSize options
  · exact follows_owner.eq_of_laterWins single_owner merges.owner options
  · exact follows_version.eq_of_laterWins single_version merges.version options

theorem applyAll_merge (options : BuildOptions) (first : Overrides) (rest : List Overrides) :
    (options.apply first).applyAll rest = options.apply (rest.foldl merge first) := by
  induction rest generalizing first with
  | nil => rfl
  | cons next rest ih =>
      have merged := apply_of_merges (merges_merge first next) options
      calc (options.apply first).applyAll (next :: rest)
          = ((options.apply first).apply next).applyAll rest := rfl
        _ = (options.apply (first.merge next)).applyAll rest := by rw [merged]
        _ = options.apply ((next :: rest).foldl merge first) := ih (first.merge next)

/-- A level that exists, and blocks that are not empty. -/
structure InRange (options : BuildOptions) : Prop where
  level_le : options.compressionLevel ≤ 9
  blockSize_pos : 1 ≤ options.readBlockSize

theorem InRange.apply {options : BuildOptions} (inRange : options.InRange)
    (override : Overrides) : (options.apply override).InRange := by
  constructor
  · rcases follows_level options override with ⟨asked, _, level⟩ | ⟨_, same⟩
    · rw [level]
      exact Nat.min_le_right asked 9
    · rw [same]
      exact inRange.level_le
  · rcases follows_blockSize options override with ⟨_, positive⟩ | ⟨_, same⟩
    · exact positive
    · rw [same]
      exact inRange.blockSize_pos

theorem InRange.applyAll {options : BuildOptions} (inRange : options.InRange)
    (overrides : List Overrides) : (options.applyAll overrides).InRange := by
  induction overrides generalizing options with
  | nil => exact inRange
  | cons first rest ih => exact ih (inRange.apply first)

/-- Overrides applied in turn lead to the options in which the last effective value of each
has won, and to no others.  Merged into one override they do the same.  To apply an override
again changes nothing, and options in range stay in range. -/
theorem applyAll_settles (options : BuildOptions) (overrides : List Overrides) :
    (∀ final, options.applyAll overrides = final ↔ Settled options overrides final) ∧
    (∀ earlier later, Merges earlier later (earlier.merge later) ∧
      (options.apply earlier).apply later = options.apply (earlier.merge later)) ∧
    options.applyAll overrides = options.apply (overrides.foldl merge {}) ∧
    (∀ override, (options.apply override).apply override = options.apply override) ∧
    (options.InRange → (options.applyAll overrides).InRange) := by
  refine ⟨?settled, ?merged, applyAll_merge options {} overrides, ?again,
    fun inRange => inRange.applyAll overrides⟩
  case settled =>
    intro final
    constructor
    · rintro rfl
      exact settled_applyAll options overrides
    · exact (settled_applyAll options overrides).unique
  case merged =>
    intro earlier later
    have merges := merges_merge earlier later
    exact ⟨merges, (apply_of_merges merges options).symm⟩
  case again =>
    intro override
    exact (apply_of_merges (.self override) options).symm

/-- A level out of range, and a block size that a zero does not undo. -/
def layered : List Overrides :=
  [{ compressionLevel := some 42, readBlockSize := some 512 },
    { readBlockSize := some 0, ownerName := some "mender" }]

theorem applyAll_settles_layered :
    InRange {} ∧
      Settled {} layered { compressionLevel := 9, readBlockSize := 512, ownerName := "mender" } ∧
      layered.foldl merge {} =
        { compressionLevel := some 42, readBlockSize := some 512, ownerName := some "mender" } ∧
      (applyAll {} layered).InRange := by
  have inRange : InRange {} := ⟨by decide, by decide⟩
  obtain ⟨settled, _, _, _, keeps⟩ := applyAll_settles {} layered
  exact ⟨inRange, (settled _).mp rfl, rfl, keeps inRange⟩

end BuildOptions

end UpdateArtifact
