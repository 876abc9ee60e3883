import UpdateArtifact.Proofs.Tar.RoundTrip

/-!
# Archives that are cut short

A reader goes from block to block and takes nothing from behind the place it has reached.
What it lists of the beginning of an archive are therefore the first files of the whole,
at the same places.  Wherever an archive is cut off, a file can be missed but not moved.
-/

namespace UpdateArtifact

namespace Tar

theorem le_length_of_take {part : Bytes} {count : Nat}
    (complete : ¬ (part.take count).length < count) : count ≤ part.length := by
  rw [List.length_take] at complete
  omega

/-- The blocks that continue a map are read up to the last one and no further. -/
theorem Sparse.extend_append {size : Nat} {reach : Reach} {part : Bytes} {ends : Reach × Nat}
    (read : extend size reach part = .ok ends) (more : Bytes) :
    extend size reach (part ++ more) = .ok ends := by
  fun_induction extend size reach part generalizing ends
  case case1 => cases read
  case case2 => cases read
  case case3 => cases read
  case case4 reach part present block complete further checked goesOn ih =>
    have enough := le_length_of_take complete
    simp only [block] at complete checked goesOn
    cases later : extend size further (part.drop blockSize) with
    | error fault => simp [later, Except.map] at read
    | ok reached =>
        rw [later] at read
        rw [extend]
        simp only [List.append_eq_nil_iff, present, false_and, if_false, dite_false, if_true,
          List.take_append_of_le_length enough, List.drop_append_of_le_length enough,
          complete, checked, goesOn, ih later, read]
  case case5 reach part present block complete further checked last =>
    have enough := le_length_of_take complete
    simp only [block] at complete checked last
    rw [extend]
    simp only [List.append_eq_nil_iff, present, false_and, if_false, dite_false,
      List.take_append_of_le_length enough, complete, checked, last, read]

theorem Sparse.checkMap_append {size count : Nat} {header part : Bytes}
    (read : checkMap size header part = .ok count) (more : Bytes) :
    checkMap size header (part ++ more) = .ok count := by
  unfold checkMap at read ⊢
  split at read
  · cases read
  · next known =>
      rw [if_neg known]
      split at read
      · cases read
      · next reach first =>
          simp only
          by_cases continued : Bytes.slice 482 1 header = [1]
          · simp only [continued, if_true] at read ⊢
            cases later : extend size reach part with
            | error fault => simp [later] at read
            | ok ends => rwa [extend_append later, ← later]
          · simpa only [continued, if_false] using read

namespace Listing

theorem mapBlocks_append {size count : Nat} {header part : Bytes}
    (read : mapBlocks size header part = .ok count) (more : Bytes) :
    mapBlocks size header (part ++ more) = .ok count := by
  unfold mapBlocks at read ⊢
  split at read
  · next sparse => rw [if_pos sparse, Sparse.checkMap_append read]
  · next whole => rwa [if_neg whole]

/-- The names of the files, each with the place where its header ends. -/
def places (listing : Listing) : List (Bytes × Nat) :=
  listing.members.map fun member => (member.name, member.offset)

/-- Behind an entry that is not cut, the beginning of an archive goes on as the whole. -/
theorem places_behind {start skipped : Nat} {announced : Announcement} {body more : Bytes}
    (later : (readFrom (start + skipped) announced (body.drop skipped)).places <+:
      (readFrom (start + skipped) announced (body.drop skipped ++ more)).places) :
    (if (body.take skipped).length < skipped then stop (some .cutData)
      else readFrom (start + skipped) announced (body.drop skipped)).places <+:
    (if ((body ++ more).take skipped).length < skipped then stop (some .cutData)
      else readFrom (start + skipped) announced ((body ++ more).drop skipped)).places := by
  by_cases cut : (body.take skipped).length < skipped
  · rw [if_pos cut]
    exact List.nil_prefix
  · have enough := le_length_of_take cut
    rw [List.take_append_of_le_length enough, List.drop_append_of_le_length enough, if_neg cut,
      if_neg cut]
    exact later

theorem places_append (part more : Bytes) (offset : Nat) (announced : Announcement) :
    (readFrom offset announced part).places <+:
      (readFrom offset announced (part ++ more)).places := by
  fun_induction readFrom offset announced part with
  | case1 => exact List.nil_prefix
  | case2 => exact List.nil_prefix
  | case3 => exact List.nil_prefix
  | case4 => exact List.nil_prefix
  | case5 => exact List.nil_prefix
  | case6 => exact List.nil_prefix
  | case7 offset announced part present header body complete used inHeader right start size
      span room next notice noted later added ih =>
      by_cases sized : size ≤ body.length
      · have enough := le_length_of_take complete
        have step : readFrom offset announced (part ++ more) =
            if ((body ++ more).take span).length < span then stop (some .cutData)
            else readFrom (start + span) later ((body ++ more).drop span) := by
          rw [readFrom]
          simp only [List.append_eq_nil_iff, present, false_and, if_false, dite_false,
            Bool.false_eq_true, List.take_append_of_le_length enough,
            List.drop_append_of_le_length enough, complete, used, right, room, noted,
            List.take_append_of_le_length sized, added, header, body, size, span, start]
        rw [step]
        exact places_behind (ih span later)
      · -- An announcement that is cut is not the one of the whole archive, but nothing is
        -- listed behind it.
        have cut : (body.take span).length < span := by
          rw [List.length_take]
          omega
        have ends : next span later = stop (some .cutData) := dif_pos cut
        rw [ends]
        exact List.nil_prefix
  | case8 => exact List.nil_prefix
  | case9 offset announced part present header body complete used inHeader right start size
      span room next file count checked mapped member ih =>
      have enough := le_length_of_take complete
      have step : readFrom offset announced (part ++ more) =
          cons { member with data := Bytes.slice mapped size (body ++ more) }
            (if ((body ++ more).take (mapped + span)).length < mapped + span then
              stop (some .cutData)
            else
              readFrom (start + (mapped + span)) .nothing
                ((body ++ more).drop (mapped + span))) := by
        rw [readFrom]
        simp only [List.append_eq_nil_iff, present, false_and, if_false, dite_false,
          Bool.false_eq_true, List.take_append_of_le_length enough,
          List.drop_append_of_le_length enough, complete, used, right, room, file,
          mapBlocks_append checked, header, body, size, span, start, mapped, member]
      rw [step]
      exact List.cons_prefix_cons.mpr ⟨rfl, places_behind (ih (mapped + span) .nothing)⟩

end Listing

theorem dataOffset_eq_iff {archive : Bytes} {name : String} {offset : Nat} :
    dataOffset archive name = .ok (some offset) ↔
      ((Listing.read archive).places.find? (·.1 = Bytes.utf8 name)).map Prod.snd =
        some offset := by
  unfold dataOffset Listing.find Listing.places
  rw [List.find?_map]
  simp only [Function.comp_def]
  cases found : (Listing.read archive).members.find? (·.name = Bytes.utf8 name) with
  | some member => simp [Except.map]
  | none =>
      cases (Listing.read archive).fault with
      | none => simp [Except.map]
      | some fault => simp [Except.map]

/-- A file that is found in the beginning of an archive is found there in the archive. -/
theorem dataOffset_append {part : Bytes} {name : String} {offset : Nat}
    (found : dataOffset part name = .ok (some offset)) (more : Bytes) :
    dataOffset (part ++ more) name = .ok (some offset) := by
  rw [dataOffset_eq_iff] at found ⊢
  obtain ⟨place, first, rfl⟩ := Option.map_eq_some_iff.mp found
  have start := Listing.places_append part more 0 .nothing
  rw [Listing.read, start.find?_eq_some first]
  rfl

theorem dataOffset_of_absent {owner name : String} {files : List (String × Bytes)}
    {bytes : Bytes} (encoded : Container.encodeAll owner files = .ok bytes)
    (others : ∀ file ∈ files, Path.readName file.1 ≠ Bytes.utf8 name)
    (fits : bytes.length < Numeral.wordLimit) :
    dataOffset (bytes ++ Bytes.zeros (2 * blockSize)) name = .ok none := by
  rw [dataOffset, find_of_encodeAll encoded others _ fits, Listing.readFrom_end]
  rfl

namespace Container

/-- The first of several files of one name is found where its data starts, which is the
start of a block. -/
theorem dataOffset_of_first {owner name : String} {before after : List (String × Bytes)}
    {data bytes : Bytes}
    (plain : ∀ file ∈ before ++ (name, data) :: after, Path.Plain file.1)
    (encoded : encodeAll owner (before ++ (name, data) :: after) = .ok bytes)
    (others : ∀ file ∈ before, file.1 ≠ name) (fits : bytes.length < Numeral.wordLimit)
    (ending : Bytes) :
    ∃ front preamble back, encodeAll owner before = .ok front ∧
      accept owner name data.length = .ok preamble ∧
      bytes ++ ending = front ++ preamble ++ (data ++ back) ∧
      dataOffset (bytes ++ ending) name = .ok (some (front ++ preamble).length) ∧
      512 ∣ (front ++ preamble).length := by
  obtain ⟨front, preamble, rest, first, accepted, _, rfl⟩ := encodeAll_split encoded
  have plainBefore : ∀ file ∈ before, Path.Plain file.1 :=
    fun file member => plain file (List.mem_append_left _ member)
  have named : Path.Plain name :=
    plain (name, data) (List.mem_append_right _ List.mem_cons_self)
  have room : front.length + preamble.length + (data.length + gap data.length) <
      Numeral.wordLimit := by
    simp only [List.length_append, Bytes.length_zeros] at fits
    omega
  have found := dataOffset_of_split plainBefore first others named accepted (rest ++ ending) room
  have blocks : 512 ∣ front.length + preamble.length :=
    Nat.dvd_add (dvd_length_encodeAll first) (dvd_length_of_accept accepted)
  refine ⟨front, preamble, Bytes.zeros (gap data.length) ++ (rest ++ ending), first, accepted,
    ?_, ?_, ?_⟩
  · simp only [List.append_assoc]
  · rw [List.length_append, ← found]
    simp only [List.append_assoc]
  · rw [List.length_append]
    exact blocks

/-- In a finished archive a name leads to the data of the first file that was written under
it, and nowhere if there is none.  A beginning of the archive leads to no other place. -/
theorem dataOffset_of_writeAll {owner : String} {files : List (String × Bytes)}
    {container : Container} (proper : ∀ file ∈ files, Path.Proper file.1)
    (written : ({ owner } : Container).writeAll files = .ok container)
    (fits : container.close.length < Numeral.wordLimit) (name : String) :
    (∀ before data after, files = before ++ (name, data) :: after →
      (∀ file ∈ before, file.1 ≠ name) →
      ∃ front preamble back offset, ({ owner } : Container).writeAll before = .ok front ∧
        accept owner name data.length = .ok preamble ∧
        container.close = front.written ++ preamble ++ (data ++ back) ∧
        offset = (front.written ++ preamble).length ∧
        dataOffset container.close name = .ok (some offset) ∧
        Bytes.slice offset data.length container.close = data ∧ 512 ∣ offset) ∧
    (name ∉ files.map Prod.fst → dataOffset container.close name = .ok none) ∧
    ∀ part offset, part <+: container.close → dataOffset part name = .ok (some offset) →
      dataOffset container.close name = .ok (some offset) := by
  have plain : ∀ file ∈ files, Path.Plain file.1 := fun file member => (proper file member).plain
  obtain ⟨bytes, encoded, rfl⟩ := writeAll_eq_ok_iff.mp written
  have archive : (({ owner } : Container).extend bytes).close =
      bytes ++ Bytes.zeros (2 * blockSize) := rfl
  rw [archive] at fits ⊢
  have inWord : bytes.length < Numeral.wordLimit := by
    rw [List.length_append] at fits
    omega
  refine ⟨?first, ?absent, ?cut⟩
  case first =>
    rintro before data after rfl others
    obtain ⟨front, preamble, back, opening, accepted, shape, found, blocks⟩ :=
      dataOffset_of_first plain encoded others inWord (Bytes.zeros (2 * blockSize))
    exact ⟨({ owner } : Container).extend front, preamble, back, (front ++ preamble).length,
      writeAll_eq_ok_iff.mpr ⟨front, opening, rfl⟩, accepted, shape, rfl, found,
      Bytes.slice_of_split _ _ shape rfl rfl, blocks⟩
  case absent =>
    intro absent
    apply dataOffset_of_absent encoded _ inWord
    intro file member same
    rw [(plain file member).readName_eq] at same
    exact absent (Bytes.utf8_injective same ▸ List.mem_map_of_mem member)
  case cut =>
    rintro part offset ⟨more, whole⟩ found
    rw [← whole]
    exact dataOffset_append found more

/-- The room that is taken before the data of a file, by its header and what announces it. -/
def frontRoom (path : String) : Nat :=
  ((Path.place path).toOption.bind Path.Placement.longName).elim blockSize fun longName =>
    blockSize + (longName.length + gap longName.length) + blockSize

theorem length_of_accept {owner path : String} {length : Nat} {preamble : Bytes}
    (accepted : accept owner path length = .ok preamble) : preamble.length = frontRoom path := by
  obtain ⟨placement, placed, rfl, _⟩ := placed_of_accept accepted
  simp only [frontRoom, placed, Except.toOption, Option.bind_some]
  cases long : placement.longName with
  | none => simp [Container.preamble, long]
  | some content =>
      simp [Container.preamble, long, longNameEntry]
      omega

theorem length_of_encodeAll {owner : String} {files : List (String × Bytes)} {bytes : Bytes}
    (encoded : encodeAll owner files = .ok bytes) :
    bytes.length =
      (files.map fun file => frontRoom file.1 + (file.2.length + gap file.2.length)).sum := by
  induction files generalizing bytes with
  | nil =>
      cases encoded
      rfl
  | cons file rest ih =>
      obtain ⟨path, data⟩ := file
      obtain ⟨front, back, first, later, rfl⟩ := encodeAll_cons_ok encoded
      obtain ⟨preamble, accepted, rfl⟩ := accepted_of_encodeFile first
      simp only [List.length_append, Bytes.length_zeros, List.map_cons, List.sum_cons,
        length_of_accept accepted, ih later]
      omega

theorem length_of_writeAll {owner : String} {files : List (String × Bytes)}
    {container : Container}
    (written : ({ owner } : Container).writeAll files = .ok container) :
    container.written.length =
      (files.map fun file => frontRoom file.1 + (file.2.length + gap file.2.length)).sum := by
  obtain ⟨bytes, encoded, rfl⟩ := writeAll_eq_ok_iff.mp written
  exact length_of_encodeAll encoded

/-- Data that looks like the header of a file, under a name that is too long for the field. -/
def decoy : String × Bytes :=
  (String.ofList (List.replicate 150 'b'),
    ({ name := Bytes.utf8 "a", size := 0, type := .file, owner := [] } : Header).encode)

/-- Two files of one name, behind data that imitates a third. -/
theorem dataOffset_of_writeAll_decoy :
    ∃ container,
      ({ owner := "root" } : Container).writeAll [decoy, ("a", [1, 2]), ("a", [3])] =
        .ok container ∧
      dataOffset container.close "a" = .ok (some 2560) ∧
      Bytes.slice 2560 2 container.close = [1, 2] ∧
      dataOffset container.close "b" = .ok none ∧
      ∀ part offset, part <+: container.close → dataOffset part "a" = .ok (some offset) →
        offset = 2560 := by
  have proper : ∀ file ∈ [decoy, ("a", [1, 2]), ("a", [3])], Path.Proper file.1 := by
    decide +kernel
  have fit : ownerFault? "root" = none := by
    decide
  obtain ⟨bytes, encoded⟩ := encodeAll_of_proper fit proper
  obtain ⟨container, written⟩ : ∃ container, ({ owner := "root" } : Container).writeAll
      [decoy, ("a", [1, 2]), ("a", [3])] = .ok container :=
    ⟨_, writeAll_eq_ok_iff.mpr ⟨bytes, encoded, rfl⟩⟩
  have decoyFront : frontRoom decoy.1 = 1536 := by
    decide +kernel
  have header : frontRoom "a" = 512 := by
    decide
  have data : decoy.2.length = 512 := Header.length_encode _
  have length := length_of_writeAll written
  simp only [List.map_cons, List.map_nil, decoyFront, header, data] at length
  have fits : container.close.length < Numeral.wordLimit := by
    rw [close, List.length_append, length, Bytes.length_zeros]
    decide
  obtain ⟨first, _, cut⟩ := dataOffset_of_writeAll proper written fits "a"
  obtain ⟨_, absent, _⟩ := dataOffset_of_writeAll proper written fits "b"
  obtain ⟨front, preamble, _, offset, before, accepted, _, atData, found, held, _⟩ :=
    first [decoy] [1, 2] [("a", [3])] rfl (by decide +kernel)
  have place : offset = 2560 := by
    have opening := length_of_writeAll before
    simp only [List.map_cons, List.map_nil, decoyFront, data] at opening
    rw [atData, List.length_append, opening, length_of_accept accepted, header]
    decide
  subst place
  refine ⟨container, written, found, held, absent (by decide +kernel), ?_⟩
  intro part offset start foundInPart
  have same := cut part offset start foundInPart
  rw [found] at same
  simpa using same.symm

end Container

end Tar

end UpdateArtifact
