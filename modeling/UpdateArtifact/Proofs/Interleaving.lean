import UpdateArtifact.Proofs.Documents
import UpdateArtifact.Proofs.Outcomes

/-!
# Calls of different kinds

A key conflict is found by the payload that comes too late, or by validation if the
artifact's keys come later.  In a run that ends with a build the verdict is the same: what
the calls of one kind make of an artifact is all that they contribute, and the keys of the
whole are apart in every order or in none.
-/

namespace UpdateArtifact

namespace Artifact

/-- What a call changes. -/
inductive Call.Kind where
  | group
  | provides
  | depends
  | options
  | payload
  | script
  deriving DecidableEq

/-- The kind of a call that adds to an artifact.  A build adds nothing. -/
def Call.kind? : Call → Option Kind
  | group _ => some .group
  | provides _ _ => some .provides
  | depends _ _ => some .depends
  | options _ => some .options
  | overrides _ => some .options
  | payload _ => some .payload
  | script _ _ => some .script
  | build => none

def ofKind (kind : Call.Kind) (calls : List Call) : List Call :=
  calls.filter fun call => call.kind? = some kind

theorem ofKind_nil (kind : Call.Kind) : ofKind kind [] = [] := rfl

theorem ofKind_append (kind : Call.Kind) (first second : List Call) :
    ofKind kind (first ++ second) = ofKind kind first ++ ofKind kind second :=
  List.filter_append _ _

theorem ofKind_cons_of_eq {kind : Call.Kind} {call : Call} (same : call.kind? = some kind)
    (rest : List Call) : ofKind kind (call :: rest) = call :: ofKind kind rest :=
  List.filter_cons_of_pos (by simp [same])

theorem ofKind_cons_of_ne {kind other : Call.Kind} {call : Call} (same : call.kind? = some kind)
    (different : other ≠ kind) (rest : List Call) :
    ofKind other (call :: rest) = ofKind other rest :=
  List.filter_cons_of_neg (by simp [same, Ne.symm different])

/-- Two interleavings of the same calls of each kind, with no build among them. -/
structure Interleaved (left right : List Call) : Prop where
  left_kinds : ∀ call ∈ left, call.kind?.isSome
  right_kinds : ∀ call ∈ right, call.kind?.isSome
  same : ∀ kind, ofKind kind left = ofKind kind right

theorem Interleaved.symm {left right : List Call} (interleaved : Interleaved left right) :
    Interleaved right left :=
  ⟨interleaved.right_kinds, interleaved.left_kinds, fun kind => (interleaved.same kind).symm⟩

/-- The artifact with nothing but what the calls of one kind set. -/
def restricted (artifact : Artifact) (kind : Call.Kind) : Artifact :=
  let bare : Artifact := { name := artifact.name, deviceTypes := artifact.deviceTypes }
  match kind with
  | .group => { bare with group := artifact.group }
  | .provides => { bare with provides := artifact.provides }
  | .depends => { bare with depends := artifact.depends }
  | .options => { bare with options := artifact.options }
  | .payload => { bare with payloads := artifact.payloads }
  | .script => { bare with scripts := artifact.scripts }

theorem eq_of_restricted {left right : Artifact}
    (same : ∀ kind, left.restricted kind = right.restricted kind) : left = right := by
  have group := same .group
  have provides := same .provides
  have depends := same .depends
  have options := same .options
  have payloads := same .payload
  have scripts := same .script
  simp only [restricted, Artifact.mk.injEq] at group provides depends options payloads scripts
  cases left
  cases right
  simp_all only

theorem reserved_restricted (artifact : Artifact) (kind : Call.Kind) (side : Side) :
    (artifact.restricted kind).reserved side ⊆ artifact.reserved side := by
  cases side with
  | depends => cases kind <;> exact List.Subset.refl _
  | provides =>
      cases kind with
      | group => exact List.Subset.refl _
      | _ => exact List.cons_subset_cons _ (List.nil_subset _)

theorem extra_restricted (artifact : Artifact) (kind : Call.Kind) (side : Side) :
    ((artifact.restricted kind).extra side).keys ⊆ (artifact.extra side).keys := by
  cases side with
  | provides =>
      cases kind with
      | provides => exact List.Subset.refl _
      | _ => exact List.nil_subset _
  | depends =>
      cases kind with
      | depends => exact List.Subset.refl _
      | _ => exact List.nil_subset _

/-- The payload of a call has no key that the artifact sets itself. -/
def Free (artifact : Artifact) (call : Call) : Prop :=
  ∀ payload, call = .payload payload → ∀ side, ∀ key ∈ payload.keys side,
    key ∉ artifact.reserved side ∧ key ∉ (artifact.extra side).keys

/-- With free keys, a payload meets only the keys of other payloads. -/
theorem clash?_restricted {artifact : Artifact} {payload : Payload}
    (free : artifact.Free (.payload payload)) (side : Side) :
    (artifact.restricted .payload).clash? payload side = artifact.clash? payload side := by
  apply List.find?_congr
  intro key member
  obtain ⟨notReserved, notExtra⟩ := free payload rfl side key member
  have outside : key ∉ (artifact.restricted .payload).reserved side :=
    fun held => notReserved (reserved_restricted artifact _ side held)
  have outsideToo : key ∉ ((artifact.restricted .payload).extra side).keys :=
    fun held => notExtra (extra_restricted artifact _ side held)
  have payloads : (artifact.restricted .payload).payloads = artifact.payloads := rfl
  simp [claimed, notReserved, notExtra, outside, outsideToo, payloads]

section

variable [Deflate]

def Accepts : Artifact → List Call → Prop
  | _, [] => True
  | artifact, call :: rest =>
      (artifact.perform call).1 = .ok () ∧ (artifact.perform call).2.Accepts rest

theorem performAll_append (artifact : Artifact) (first second : List Call) :
    artifact.performAll (first ++ second) = (artifact.performAll first).performAll second :=
  List.foldl_append

theorem accepts_append (artifact : Artifact) (first second : List Call) :
    artifact.Accepts (first ++ second) ↔
      artifact.Accepts first ∧ (artifact.performAll first).Accepts second := by
  induction first generalizing artifact with
  | nil => simp [Accepts, Artifact.performAll]
  | cons call rest ih =>
      simp only [List.cons_append, Accepts, ih, and_assoc]
      rfl

/-- The calls and a build after them all succeed, and the build gives these bytes. -/
def Makes (artifact : Artifact) (calls : List Call) (archive : Bytes) : Prop :=
  artifact.Accepts calls ∧ (artifact.performAll calls).build.1 = .ok archive

theorem restricted_perform_of_ne {kind other : Call.Kind} {call : Call}
    (same : call.kind? = some kind) (different : other ≠ kind) (artifact : Artifact) :
    (artifact.perform call).2.restricted other = artifact.restricted other := by
  cases call with
  | build => contradiction
  | overrides text =>
      cases same
      simp only [Artifact.perform]
      cases Overrides.parse text with
      | error fault => rfl
      | ok overrides => cases other <;> first | rfl | contradiction
  | payload payload =>
      cases same
      simp only [Artifact.perform]
      cases added : artifact.addPayload payload with
      | error refusal => rfl
      | ok changed =>
          obtain ⟨entry, _, _, _, _, rfl⟩ := addPayload_ok added
          cases other <;> first | rfl | contradiction
  | script state content =>
      cases same
      simp only [Artifact.perform, addScript]
      split
      · rfl
      · cases other <;> first | rfl | contradiction
  | _ =>
      cases same
      cases other <;> first | rfl | contradiction

theorem free_of_accepted {artifact : Artifact} {call : Call}
    (accepted : (artifact.perform call).1 = .ok ()) : artifact.Free call := by
  rintro payload rfl side key member
  simp only [Artifact.perform] at accepted
  cases added : artifact.addPayload payload with
  | error refusal =>
      rw [added] at accepted
      contradiction
  | ok changed =>
      obtain ⟨_, _, _, _, unclaimed, _⟩ := addPayload_ok added
      have taken := unclaimed side key member
      simp only [claimed, List.mem_append, not_or] at taken
      exact taken.1

/-- A call does the same to what is there of its kind, with the same outcome. -/
theorem perform_restricted {kind : Call.Kind} {call : Call} (same : call.kind? = some kind)
    {artifact : Artifact} (free : artifact.Free call) :
    (artifact.restricted kind).perform call =
      ((artifact.perform call).1, (artifact.perform call).2.restricted kind) := by
  cases call with
  | build => contradiction
  | overrides text =>
      cases same
      simp only [Artifact.perform]
      cases Overrides.parse text <;> rfl
  | payload payload =>
      cases same
      have entered : (artifact.restricted .payload).entryFor payload =
          artifact.entryFor payload := by
        simp only [entryFor, clash?_restricted free]
        rfl
      simp only [Artifact.perform, Artifact.addPayload, entered]
      cases artifact.entryFor payload <;> rfl
  | script state content =>
      cases same
      have scripts : (artifact.restricted .script).scripts = artifact.scripts := rfl
      simp only [Artifact.perform, addScript, scripts]
      split <;> rfl
  | _ =>
      cases same
      rfl

/-- The calls of one kind are accepted on their own if all calls are, and give what is there
of their kind. -/
theorem accepts_ofKind {name : String} {deviceTypes : List String} {calls : List Call}
    (kinds : ∀ call ∈ calls, call.kind?.isSome) (accepted : Accepts { name, deviceTypes } calls)
    (kind : Call.Kind) :
    Accepts { name, deviceTypes } (ofKind kind calls) ∧
      performAll { name, deviceTypes } (ofKind kind calls) =
        (performAll { name, deviceTypes } calls).restricted kind := by
  induction calls using List.reverseRecOn with
  | nil => exact ⟨trivial, by cases kind <;> rfl⟩
  | append_singleton calls call ih =>
      rw [accepts_append] at accepted
      obtain ⟨before, last⟩ := accepted
      obtain ⟨parts, run⟩ := ih (fun other member => kinds other (List.mem_append_left _ member))
        before
      obtain ⟨own, same⟩ := Option.isSome_iff_exists.mp (kinds call (by simp))
      have whole : performAll { name, deviceTypes } (calls ++ [call]) =
          ((performAll { name, deviceTypes } calls).perform call).2 :=
        performAll_append _ _ _
      rw [ofKind_append, whole]
      by_cases equal : kind = own
      · subst equal
        have step := perform_restricted same (free_of_accepted last.1)
        rw [last.1] at step
        rw [ofKind_cons_of_eq same, accepts_append, performAll_append, run]
        exact ⟨⟨parts, congrArg Prod.fst step, trivial⟩, congrArg Prod.snd step⟩
      · rw [ofKind_cons_of_ne same equal, restricted_perform_of_ne same equal, ← run,
          ofKind_nil, List.append_nil]
        exact ⟨parts, rfl⟩

/-- An artifact with the keys and payloads of another one, and maybe more. -/
structure Within (smaller larger : Artifact) : Prop where
  reserved : ∀ side, smaller.reserved side ⊆ larger.reserved side
  extra : ∀ side, (smaller.extra side).keys ⊆ (larger.extra side).keys
  payloads : smaller.payloads <+: larger.payloads

omit [Deflate] in
theorem Within.refl (artifact : Artifact) : Within artifact artifact :=
  ⟨fun _ => List.Subset.refl _, fun _ => List.Subset.refl _, List.prefix_rfl⟩

omit [Deflate] in
theorem Within.trans {first second third : Artifact} (earlier : Within first second)
    (later : Within second third) : Within first third :=
  ⟨fun side => List.Subset.trans (earlier.reserved side) (later.reserved side),
    fun side => List.Subset.trans (earlier.extra side) (later.extra side),
    List.IsPrefix.trans earlier.payloads later.payloads⟩

omit [Deflate] in
theorem Within.of_eq {before after : Artifact} (group : after.group = before.group)
    (provides : after.provides = before.provides) (depends : after.depends = before.depends)
    (payloads : before.payloads <+: after.payloads) : Within before after := by
  refine ⟨?_, ?_, payloads⟩
  · intro side
    cases side with
    | provides => simp only [Artifact.reserved, group, List.Subset.refl]
    | depends => exact List.Subset.refl _
  · intro side
    cases side with
    | provides => simp only [Artifact.extra, provides, List.Subset.refl]
    | depends => simp only [Artifact.extra, depends, List.Subset.refl]

omit [Deflate] in
private theorem keys_subset_insert (metadata : Metadata) (key : String) (value : Json) :
    metadata.keys ⊆ (metadata.insert key value).keys := by
  rw [Metadata.keys_insert]
  split
  · exact List.Subset.refl _
  · exact List.subset_append_left _ _

theorem within_perform {call : Call} (kinded : call.kind?.isSome) (artifact : Artifact) :
    Within artifact (artifact.perform call).2 := by
  cases call with
  | build => contradiction
  | group group =>
      refine ⟨?_, fun side => by cases side <;> exact List.Subset.refl _, List.prefix_rfl⟩
      intro side
      cases side with
      | depends => exact List.Subset.refl _
      | provides =>
          simp only [reserved, Artifact.perform, withGroup, Option.isSome_some, if_true]
          split
          · exact List.Subset.refl _
          · exact List.cons_subset_cons _ (List.nil_subset _)
  | provides key value =>
      refine ⟨fun side => by cases side <;> exact List.Subset.refl _, ?_, List.prefix_rfl⟩
      intro side
      cases side with
      | provides => exact keys_subset_insert _ key value
      | depends => exact List.Subset.refl _
  | depends key value =>
      refine ⟨fun side => by cases side <;> exact List.Subset.refl _, ?_, List.prefix_rfl⟩
      intro side
      cases side with
      | provides => exact List.Subset.refl _
      | depends => exact keys_subset_insert _ key value
  | options options => exact .of_eq rfl rfl rfl List.prefix_rfl
  | overrides text =>
      simp only [Artifact.perform]
      cases Overrides.parse text with
      | error fault => exact .refl artifact
      | ok overrides => exact .of_eq rfl rfl rfl List.prefix_rfl
  | payload payload =>
      simp only [Artifact.perform]
      cases added : artifact.addPayload payload with
      | error refusal => exact .refl artifact
      | ok changed =>
          obtain ⟨entry, _, _, _, _, rfl⟩ := addPayload_ok added
          exact .of_eq rfl rfl rfl (List.prefix_append _ _)
  | script state content =>
      simp only [Artifact.perform, addScript]
      split
      · exact .refl artifact
      · exact .of_eq rfl rfl rfl List.prefix_rfl

theorem within_performAll {calls : List Call} (kinds : ∀ call ∈ calls, call.kind?.isSome)
    (artifact : Artifact) : Within artifact (artifact.performAll calls) := by
  induction calls generalizing artifact with
  | nil => exact .refl artifact
  | cons call rest ih =>
      obtain ⟨kinded, others⟩ := List.forall_mem_cons.mp kinds
      exact (within_perform kinded artifact).trans (ih others _)

omit [Deflate] in
theorem within_of_restricted {smaller larger : Artifact}
    (parts : ∀ kind, Within (smaller.restricted kind) (larger.restricted kind)) :
    Within smaller larger := by
  refine ⟨?_, ?_, (parts .payload).payloads⟩
  · intro side
    have group := (parts .group).reserved side
    cases side with
    | provides => exact group
    | depends => exact group
  · intro side
    cases side with
    | provides => exact (parts .provides).extra .provides
    | depends => exact (parts .depends).extra .depends

omit [Deflate] in
theorem free_of_keySets {smaller whole : Artifact} {staged : StagedPayload}
    (apart : ∀ side, (whole.keySets side).Pairwise List.Disjoint)
    (member : staged ∈ whole.payloads) (within : Within smaller whole) (side : Side) :
    ∀ key ∈ staged.payload.keys side,
      key ∉ smaller.reserved side ∧ key ∉ (smaller.extra side).keys := by
  intro key held
  obtain ⟨reserved, rest⟩ := List.pairwise_cons.mp (apart side)
  have keys : staged.payload.keys side ∈
      whole.payloads.map fun staged => staged.payload.keys side :=
    List.mem_map_of_mem member
  constructor
  · intro taken
    exact reserved _ (List.mem_cons_of_mem _ keys) (within.reserved side taken) held
  · intro taken
    exact (List.pairwise_cons.mp rest).1 _ keys (within.extra side taken) held

theorem mem_of_accepted {artifact : Artifact} {payload : Payload}
    (accepted : (artifact.perform (.payload payload)).1 = .ok ()) :
    ∃ staged ∈ (artifact.perform (.payload payload)).2.payloads, staged.payload = payload := by
  simp only [Artifact.perform] at accepted ⊢
  cases added : artifact.addPayload payload with
  | error refusal =>
      rw [added] at accepted
      contradiction
  | ok changed =>
      obtain ⟨entry, _, _, _, _, rfl⟩ := addPayload_ok added
      exact ⟨_, List.mem_append_right _ (List.mem_singleton.mpr rfl), rfl⟩

/-- Calls are accepted in an order of which the calls of each kind are accepted on their
own, if what all of them give together can be built. -/
theorem accepts_of_parts {name : String} {deviceTypes : List String} {whole : Artifact}
    (apart : ∀ side, (whole.keySets side).Pairwise List.Disjoint) {before after : List Call}
    (kinds : ∀ call ∈ before ++ after, call.kind?.isSome)
    (parts : ∀ kind, Accepts { name, deviceTypes } (ofKind kind (before ++ after)) ∧
      performAll { name, deviceTypes } (ofKind kind (before ++ after)) = whole.restricted kind)
    (accepted : Accepts { name, deviceTypes } before) :
    (performAll { name, deviceTypes } before).Accepts after := by
  induction after generalizing before with
  | nil => trivial
  | cons call rest ih =>
      have kindsBefore : ∀ other ∈ before, other.kind?.isSome :=
        fun other member => kinds other (List.mem_append_left _ member)
      have kindsRest : ∀ other ∈ call :: rest, other.kind?.isSome :=
        fun other member => kinds other (List.mem_append_right _ member)
      have runs (kind : Call.Kind) := (accepts_ofKind kindsBefore accepted kind).2
      obtain ⟨own, same⟩ := Option.isSome_iff_exists.mp (kindsRest call List.mem_cons_self)
      have within (kind : Call.Kind) : Within
          ((performAll { name, deviceTypes } before).restricted kind)
          (whole.restricted kind) := by
        rw [← (parts kind).2, ofKind_append, performAll_append, runs kind]
        exact within_performAll
          (fun other member => kindsRest other (List.mem_filter.mp member).1) _
      obtain ⟨allParts, run⟩ := parts own
      rw [ofKind_append, ofKind_cons_of_eq same, accepts_append, runs own] at allParts
      rw [ofKind_append, ofKind_cons_of_eq same, performAll_append, runs own] at run
      have alone := allParts.2.1
      have next : ((performAll { name, deviceTypes } before).perform call).1 = .ok () := by
        suffices free : (performAll { name, deviceTypes } before).Free call by
          rwa [perform_restricted same free] at alone
        rintro payload rfl
        cases same
        -- The payload is there in the end, where its keys are apart from all others.
        obtain ⟨staged, added, rfl⟩ := mem_of_accepted alone
        have member : staged ∈ (whole.restricted .payload).payloads := by
          rw [← run]
          exact (within_performAll
            (fun other member => kindsRest other
              (List.mem_cons_of_mem _ (List.mem_filter.mp member).1)) _).payloads.subset added
        exact free_of_keySets apart member (within_of_restricted within)
      refine ⟨next, ?_⟩
      have shift : before ++ call :: rest = before ++ [call] ++ rest := by
        simp
      rw [shift] at kinds parts
      have longer := ih kinds parts ((accepts_append _ _ _).mpr ⟨accepted, next, trivial⟩)
      rwa [performAll_append] at longer

private theorem makes_of_interleaved {name : String} {deviceTypes : List String}
    {left right : List Call} (interleaved : Interleaved left right) {archive : Bytes}
    (made : Makes { name, deviceTypes } left archive) :
    Makes { name, deviceTypes } right archive := by
  obtain ⟨accepted, built⟩ := made
  have apart := (Reachable.valid_of_build ⟨name, deviceTypes, left, rfl⟩ built).keysApart
  have parts := accepts_ofKind interleaved.left_kinds accepted
  simp only [interleaved.same] at parts
  have again : (performAll { name, deviceTypes } []).Accepts right :=
    accepts_of_parts apart interleaved.right_kinds parts trivial
  refine ⟨again, ?_⟩
  have same : performAll { name, deviceTypes } right = performAll { name, deviceTypes } left := by
    apply eq_of_restricted
    intro kind
    rw [← (parts kind).2, (accepts_ofKind interleaved.right_kinds again kind).2]
  rw [same]
  exact built

/-- Calls of different kinds commute.  All calls of a run and its build succeed in one
interleaving exactly if they do in every other, and then with the same archive. -/
theorem makes_iff_of_interleaved (name : String) (deviceTypes : List String)
    {left right : List Call} (interleaved : Interleaved left right) (archive : Bytes) :
    Makes { name, deviceTypes } left archive ↔ Makes { name, deviceTypes } right archive :=
  ⟨makes_of_interleaved interleaved, makes_of_interleaved interleaved.symm⟩

end

/-- A payload that comes before the keys of its artifact. -/
def payloadFirst : List Call :=
  [.payload { source := single.pieced, name := some "image" }, .group "stable",
    .script .installEnter [1], .provides "channel" (.string "beta"), .group "testing"]

/-- The same calls of each kind, with the payload last. -/
def payloadLast : List Call :=
  [.provides "channel" (.string "beta"), .group "stable", .group "testing",
    .script .installEnter [1], .payload { source := single.pieced, name := some "image" }]

theorem interleaved_payloadFirst : Interleaved payloadFirst payloadLast := by
  refine ⟨?_, ?_, fun kind => by cases kind <;> rfl⟩
  · simp [payloadFirst, Call.kind?]
  · simp [payloadLast, Call.kind?]

theorem makes_payloadFirst :
    ∃ archive, Makes { name := "release", deviceTypes := ["device"] } payloadFirst archive ∧
      Makes { name := "release", deviceTypes := ["device"] } payloadLast archive := by
  have run : performAll { name := "release", deviceTypes := ["device"] } payloadFirst =
      single.described := rfl
  have accepted : Accepts { name := "release", deviceTypes := ["device"] } payloadFirst :=
    ⟨rfl, rfl, rfl, rfl, rfl, trivial⟩
  obtain ⟨archive, built, _⟩ := builds_described
  have made : Makes { name := "release", deviceTypes := ["device"] } payloadFirst archive :=
    ⟨accepted, run ▸ built⟩
  exact ⟨archive, made,
    (makes_iff_of_interleaved _ _ interleaved_payloadFirst archive).mp made⟩

end Artifact

end UpdateArtifact
