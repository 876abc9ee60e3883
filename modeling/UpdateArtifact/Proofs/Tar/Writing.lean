import Mathlib
import UpdateArtifact.Source.Delivery
import UpdateArtifact.Tar.Compressed

/-!
# What a container writes

A file whose owner and path are accepted is written as one run of bytes that
depends on nothing but its owner, path and data.  Writing files one after the
other appends these runs, whatever stood in the container before.
-/

namespace UpdateArtifact

theorem Source.transfer_append (block : Nat) (wanted : Option Nat) (source : Source) :
    (source.transfer block (· ++ ·) wanted []).1 =
        Source.share wanted source.ahead.delivered ∧
      (source.transfer block (· ++ ·) wanted []).2.1 = Source.met wanted source.ahead := by
  have spec := Source.transfer_eq block (· ++ ·) wanted ([] : Bytes) source
    (fun state => List.append_nil state)
    (fun state first second => List.append_assoc state first second)
  simpa using spec

/-- What a source gives to an entry: the bytes before its failure, its end or the wanted
length. -/
def Source.given (source : Source) (length : Nat) : Bytes :=
  source.ahead.delivered.take length

namespace Tar

namespace Container

/-- The bytes of a whole file, or why it has none. -/
def encodeFile (owner path : String) (data : Bytes) : Except WriteFault Bytes :=
  (accept owner path data.length).map fun preamble =>
    preamble ++ data ++ Bytes.zeros (gap data.length)

/-- The bytes of files in turn, up to the first that is refused. -/
def encodeAll (owner : String) : List (String × Bytes) → Except WriteFault Bytes
  | [] => .ok []
  | (path, data) :: rest =>
      match encodeFile owner path data with
      | .error fault => .error fault
      | .ok bytes => (encodeAll owner rest).map (bytes ++ ·)

def extend (container : Container) (bytes : Bytes) : Container :=
  { container with written := container.written ++ bytes }

@[simp] theorem owner_start (options : BuildOptions) :
    (start options).owner = options.ownerName := rfl

@[simp] theorem owner_extend (container : Container) (bytes : Bytes) :
    (container.extend bytes).owner = container.owner := rfl

theorem extend_nil (container : Container) : container.extend [] = container := by
  simp [extend]

theorem extend_extend (container : Container) (first second : Bytes) :
    (container.extend first).extend second = container.extend (first ++ second) := by
  simp [extend]

theorem close_extend_start (options : BuildOptions) (bytes : Bytes) :
    ((start options).extend bytes).close = bytes ++ Bytes.zeros (2 * blockSize) := rfl

/-- Once owner and path are accepted, what a source gives up to the wanted length comes
behind the preamble, and is padded unless a read fails. -/
theorem writeEntry_of_accept {container : Container} {path : String} {length : Nat}
    {preamble : Bytes} (accepted : accept container.owner path length = .ok preamble)
    (source : Source) :
    container.writeEntry path source length =
      let data := source.given length
      let after := (source.transfer copyBlock (· ++ ·) (some length) []).2.2
      match Source.met (some length) source.ahead with
      | some error => (.error (.source error), container.extend (preamble ++ data), after)
      | none =>
          (if data.length = length then .ok () else .error (.short path length data.length),
            container.extend (preamble ++ data ++ Bytes.zeros (gap data.length)), after) := by
  obtain ⟨taken, fault⟩ := Source.transfer_append copyBlock (some length) source
  rcases moved : source.transfer copyBlock (· ++ ·) (some length) [] with ⟨data, met, after⟩
  simp only [moved] at taken fault
  have data_eq : data = source.given length := taken
  subst data_eq
  subst fault
  simp only [writeEntry, accepted, moved]
  cases Source.met (some length) source.ahead with
  | some error => rfl
  | none =>
      simp only
      split <;> rfl

/-- A source that delivers enough is written as whole a file as its bytes are. -/
theorem writeEntry_of_le (container : Container) (path : String) (source : Source)
    (length : Nat) (enough : length ≤ source.ahead.delivered.length) :
    container.writeEntry path source length =
      match encodeFile container.owner path (source.ahead.delivered.take length) with
      | .error fault => (.error fault, container, source)
      | .ok bytes =>
          (.ok (), container.extend bytes,
            (source.transfer copyBlock (· ++ ·) (some length) []).2.2) := by
  have given : source.ahead.delivered.take length = source.given length := rfl
  have whole : (source.given length).length = length := by
    rw [Source.given, List.length_take, Nat.min_eq_left enough]
  have unmet : Source.met (some length) source.ahead = none := if_pos enough
  unfold encodeFile
  rw [given, whole]
  cases accepted : accept container.owner path length with
  | error refused => simp [writeEntry, accepted, Except.map]
  | ok preamble =>
      rw [writeEntry_of_accept accepted, unmet]
      simp [whole, Except.map]

theorem writeEntry_of_lt {container : Container} {path : String} {source : Source}
    {length : Nat} {preamble : Bytes} (accepted : accept container.owner path length = .ok preamble)
    (short : source.ahead.delivered.length < length) :
    (container.writeEntry path source length).1 =
      .error (source.ahead.failure?.elim (.short path length source.ahead.delivered.length)
        .source) := by
  have unmet : Source.met (some length) source.ahead = source.ahead.failure? :=
    if_neg (Nat.not_le.mpr short)
  have all : source.given length = source.ahead.delivered :=
    List.take_of_length_le (Nat.le_of_lt short)
  rw [writeEntry_of_accept accepted, unmet, all]
  cases source.ahead.failure? with
  | some error => rfl
  | none => simp [Nat.ne_of_lt short]

/-- Nothing short of the wanted length is written without complaint. -/
theorem le_of_writeEntry_ok {container grown : Container} {path : String}
    {source after : Source} {length : Nat}
    (written : container.writeEntry path source length = (.ok (), grown, after)) :
    length ≤ source.ahead.delivered.length := by
  by_contra more
  have short : source.ahead.delivered.length < length := Nat.not_le.mp more
  cases accepted : accept container.owner path length with
  | error refused => simp [writeEntry, accepted] at written
  | ok preamble =>
      have reported := writeEntry_of_lt accepted short
      rw [written] at reported
      cases reported

theorem writeBytes_eq (container : Container) (path : String) (data : Bytes) :
    container.writeBytes path data =
      match encodeFile container.owner path data with
      | .error fault => (.error fault, container)
      | .ok bytes => (.ok (), container.extend bytes) := by
  have delivered : (Source.ofBytes data).ahead.delivered = data := by
    simp [Source.ofBytes, Source.ahead, Pass.delivered]
  have enough : data.length ≤ (Source.ofBytes data).ahead.delivered.length :=
    Nat.le_of_eq (congrArg List.length delivered.symm)
  unfold writeBytes
  rw [writeEntry_of_le _ _ _ _ enough, delivered, List.take_length]
  cases encodeFile container.owner path data <;> rfl

theorem writeAll_eq (container : Container) (files : List (String × Bytes)) :
    container.writeAll files = (encodeAll container.owner files).map container.extend := by
  induction files generalizing container with
  | nil => simp [writeAll, encodeAll, Except.map, extend_nil]
  | cons file rest ih =>
      obtain ⟨path, data⟩ := file
      simp only [writeAll, encodeAll, writeBytes_eq]
      cases encodeFile container.owner path data with
      | error fault => rfl
      | ok bytes =>
          simp only [ih, owner_extend]
          cases encodeAll container.owner rest with
          | error fault => rfl
          | ok more => simp [Except.map, extend_extend]

/-- Files are written exactly if they can be encoded, and then come behind what is there. -/
theorem writeAll_eq_ok_iff {container grown : Container} {files : List (String × Bytes)} :
    container.writeAll files = .ok grown ↔
      ∃ bytes, encodeAll container.owner files = .ok bytes ∧ grown = container.extend bytes := by
  rw [writeAll_eq]
  cases encodeAll container.owner files with
  | error fault => simp [Except.map]
  | ok bytes => simp [Except.map, eq_comm]

theorem encodeAll_cons_ok {owner path : String} {data bytes : Bytes}
    {rest : List (String × Bytes)} (encoded : encodeAll owner ((path, data) :: rest) = .ok bytes) :
    ∃ front back, encodeFile owner path data = .ok front ∧ encodeAll owner rest = .ok back ∧
      bytes = front ++ back := by
  rw [encodeAll] at encoded
  cases first : encodeFile owner path data with
  | error fault =>
      rw [first] at encoded
      contradiction
  | ok front =>
      cases later : encodeAll owner rest with
      | error fault =>
          rw [first, later] at encoded
          contradiction
      | ok back =>
          rw [first, later] at encoded
          cases encoded
          exact ⟨front, back, rfl, rfl, rfl⟩

theorem encodeAll_append (owner : String) (first second : List (String × Bytes)) :
    encodeAll owner (first ++ second) =
      match encodeAll owner first with
      | .error fault => .error fault
      | .ok bytes => (encodeAll owner second).map (bytes ++ ·) := by
  induction first with
  | nil =>
      simp only [List.nil_append, encodeAll]
      cases encodeAll owner second <;> rfl
  | cons file rest ih =>
      obtain ⟨path, data⟩ := file
      simp only [List.cons_append, encodeAll, ih]
      cases encodeFile owner path data with
      | error fault => rfl
      | ok bytes =>
          simp only
          cases encodeAll owner rest with
          | error fault => rfl
          | ok more => cases encodeAll owner second <;> simp [Except.map]

theorem encodeAll_append_ok {owner : String} {first second : List (String × Bytes)}
    {bytes : Bytes} (encoded : encodeAll owner (first ++ second) = .ok bytes) :
    ∃ front back, encodeAll owner first = .ok front ∧ encodeAll owner second = .ok back ∧
      bytes = front ++ back := by
  rw [encodeAll_append] at encoded
  cases opening : encodeAll owner first with
  | error fault =>
      rw [opening] at encoded
      contradiction
  | ok front =>
      cases later : encodeAll owner second with
      | error fault =>
          rw [opening, later] at encoded
          contradiction
      | ok back =>
          rw [opening, later] at encoded
          cases encoded
          exact ⟨front, back, rfl, rfl, rfl⟩

theorem encodeFile_of_ownerFault {owner : String} {fault : OwnerFault}
    (refused : ownerFault? owner = some fault) (path : String) (data : Bytes) :
    encodeFile owner path data = .error (.owner fault) := by
  simp [encodeFile, accept, refused, Except.map]

theorem encodeFile_of_placed {owner path : String} {placement : Path.Placement}
    (fit : ownerFault? owner = none) (placed : Path.place path = .ok placement) (data : Bytes) :
    encodeFile owner path data =
      .ok (preamble owner placement data.length ++ data ++ Bytes.zeros (gap data.length)) := by
  simp [encodeFile, accept, fit, placed, Except.map]

theorem placed_of_accept {owner path : String} {length : Nat} {bytes : Bytes}
    (accepted : accept owner path length = .ok bytes) :
    ∃ placement, Path.place path = .ok placement ∧ bytes = preamble owner placement length ∧
      ∀ other, accept owner path other = .ok (preamble owner placement other) := by
  unfold accept at accepted
  split at accepted
  · contradiction
  · next fit =>
      split at accepted
      · contradiction
      · next placement placed =>
          cases accepted
          refine ⟨placement, placed, rfl, fun other => ?_⟩
          simp only [accept, fit, placed]

theorem accepted_of_encodeFile {owner path : String} {data bytes : Bytes}
    (encoded : encodeFile owner path data = .ok bytes) :
    ∃ preamble, accept owner path data.length = .ok preamble ∧
      bytes = preamble ++ data ++ Bytes.zeros (gap data.length) := by
  unfold encodeFile at encoded
  cases accepted : accept owner path data.length with
  | error fault =>
      rw [accepted] at encoded
      contradiction
  | ok preamble =>
      rw [accepted] at encoded
      cases encoded
      exact ⟨preamble, rfl, rfl⟩

/-- Whether a file is refused does not depend on its data. -/
theorem encodeFile_of_ok {owner path : String} {data bytes : Bytes}
    (encoded : encodeFile owner path data = .ok bytes) (other : Bytes) :
    ∃ otherBytes, encodeFile owner path other = .ok otherBytes := by
  obtain ⟨_, accepted, _⟩ := accepted_of_encodeFile encoded
  obtain ⟨_, _, _, always⟩ := placed_of_accept accepted
  rw [encodeFile, always]
  exact ⟨_, rfl⟩

theorem length_le_of_encodeAll {owner : String} {files : List (String × Bytes)} {bytes : Bytes}
    (encoded : encodeAll owner files = .ok bytes) :
    ∀ file ∈ files, file.2.length ≤ bytes.length := by
  induction files generalizing bytes with
  | nil => simp
  | cons file rest ih =>
      obtain ⟨path, data⟩ := file
      obtain ⟨front, back, first, later, rfl⟩ := encodeAll_cons_ok encoded
      obtain ⟨preamble, _, rfl⟩ := accepted_of_encodeFile first
      intro other member
      simp only [List.length_append]
      rcases List.mem_cons.mp member with rfl | inRest
      · simp only
        omega
      · have bound := ih later other inRest
        omega

/-- A path that the name field holds. -/
def Short (path : String) : Prop :=
  (Path.place path).toOption.map Path.Placement.longName = some none

instance (path : String) : Decidable (Short path) := by
  unfold Short
  infer_instance

theorem Short.placed {path : String} (short : Short path) :
    ∃ placement, Path.place path = .ok placement ∧ placement.longName = none := by
  unfold Short at short
  cases placed : Path.place path with
  | error refused => simp [placed, Except.toOption] at short
  | ok placement => exact ⟨placement, rfl, by simpa [placed, Except.toOption] using short⟩

theorem encodeFile_of_short {owner path : String} (fit : ownerFault? owner = none)
    (short : Short path) (data : Bytes) :
    ∃ bytes, encodeFile owner path data = .ok bytes ∧ bytes.length ≤ data.length + 1024 := by
  obtain ⟨placement, placed, noLongName⟩ := short.placed
  refine ⟨_, encodeFile_of_placed fit placed data, ?_⟩
  have padding : gap data.length < 512 := by
    simp only [gap, blockSize]
    omega
  simp only [preamble, noLongName, Option.elim_none, List.nil_append, List.length_append,
    Header.length_encode, Bytes.length_zeros, blockSize]
  omega

theorem encodeAll_of_short {owner : String} {files : List (String × Bytes)}
    (fit : ownerFault? owner = none) (short : ∀ file ∈ files, Short file.1) :
    ∃ bytes, encodeAll owner files = .ok bytes ∧
      bytes.length ≤ (files.map fun file => file.2.length + 1024).sum := by
  induction files with
  | nil => exact ⟨[], rfl, Nat.le_refl _⟩
  | cons file rest ih =>
      obtain ⟨path, data⟩ := file
      obtain ⟨front, first, frontBound⟩ := encodeFile_of_short fit
        (short _ List.mem_cons_self) data
      obtain ⟨back, later, backBound⟩ := ih fun other member =>
        short other (List.mem_cons_of_mem _ member)
      refine ⟨front ++ back, by simp [encodeAll, first, later, Except.map], ?_⟩
      simp only [List.length_append, List.map_cons, List.sum_cons]
      omega

theorem writeAll_of_short {owner : String} {files : List (String × Bytes)}
    (fit : ownerFault? owner = none) (short : ∀ file ∈ files, Short file.1) :
    ∃ container, ({ owner } : Container).writeAll files = .ok container ∧
      container.close.length ≤ (files.map fun file => file.2.length + 1024).sum + 1024 := by
  obtain ⟨bytes, encoded, bound⟩ := encodeAll_of_short fit short
  refine ⟨({ owner } : Container).extend bytes, writeAll_eq_ok_iff.mpr ⟨bytes, encoded, rfl⟩, ?_⟩
  simpa [close, extend, blockSize] using bound

theorem encodeAll_split {owner path : String} {before after : List (String × Bytes)}
    {data archive : Bytes}
    (encoded : encodeAll owner (before ++ (path, data) :: after) = .ok archive) :
    ∃ front preamble back, encodeAll owner before = .ok front ∧
      accept owner path data.length = .ok preamble ∧ encodeAll owner after = .ok back ∧
      archive = front ++ (preamble ++ data ++ Bytes.zeros (gap data.length) ++ back) := by
  obtain ⟨front, rest, first, others, rfl⟩ := encodeAll_append_ok encoded
  obtain ⟨bytes, back, file, later, rfl⟩ := encodeAll_cons_ok others
  obtain ⟨preamble, accepted, rfl⟩ := accepted_of_encodeFile file
  exact ⟨front, preamble, back, first, accepted, later, rfl⟩

theorem encodeAll_join {owner path : String} {before after : List (String × Bytes)}
    {data front preamble back : Bytes} (first : encodeAll owner before = .ok front)
    (accepted : accept owner path data.length = .ok preamble)
    (later : encodeAll owner after = .ok back) :
    encodeAll owner (before ++ (path, data) :: after) =
      .ok (front ++ (preamble ++ data ++ Bytes.zeros (gap data.length) ++ back)) := by
  rw [encodeAll_append, first, encodeAll]
  simp [encodeFile, accepted, later, Except.map]

theorem length_encodeAll_of_length {owner path : String} {before after : List (String × Bytes)}
    {left right leftBytes rightBytes : Bytes} (same : left.length = right.length)
    (leftEncoded : encodeAll owner (before ++ (path, left) :: after) = .ok leftBytes)
    (rightEncoded : encodeAll owner (before ++ (path, right) :: after) = .ok rightBytes) :
    leftBytes.length = rightBytes.length := by
  obtain ⟨front, preamble, back, first, accepted, later, rfl⟩ := encodeAll_split leftEncoded
  rw [same] at accepted
  rw [encodeAll_join first accepted later] at rightEncoded
  cases rightEncoded
  simp [same]

end Container

end Tar

end UpdateArtifact
