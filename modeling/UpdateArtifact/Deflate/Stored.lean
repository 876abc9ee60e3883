import UpdateArtifact.Deflate

/-!
# Stored blocks

The plainest DEFLATE coder keeps the content as it is, in blocks that say how
long they are.  The level makes no difference to it.
-/

namespace UpdateArtifact

namespace Deflate.Stored

def blockSize : Nat := 31745

/-- One stored block: the mark of the last one, the length, its complement and
the content. -/
def storedBlock (last : Bool) (content : Bytes) : Bytes :=
  (if last then 1 else 0) :: Bytes.littleEndian 2 content.length ++
    Bytes.littleEndian 2 (0xffff - content.length) ++ content

/-- A body of stored blocks: full ones as long as the content lasts, and a last
one with the rest. -/
def body (content : Bytes) : Bytes :=
  if _ : content.length < blockSize then storedBlock true content
  else storedBlock false (content.take blockSize) ++ body (content.drop blockSize)
termination_by content.length
decreasing_by
  have full : ¬ content.length < blockSize := ‹_›
  simp only [List.length_drop, blockSize] at full ⊢
  omega

/-- Reads one stored block: whether it is the last one, its content, and what
follows it. -/
def readBlock? (text : Bytes) : Option (Bool × Bytes × Bytes) :=
  match text with
  | mark :: l₀ :: l₁ :: c₀ :: c₁ :: rest =>
      let length := Bytes.ofLittleEndian [l₀, l₁]
      let complement := Bytes.ofLittleEndian [c₀, c₁]
      if 1 < mark ∨ length + complement ≠ 0xffff ∨ rest.length < length then none
      else some (mark = 1, rest.take length, rest.drop length)
  | _ => none

theorem length_lt_of_readBlock? {text : Bytes} {last : Bool} {content rest : Bytes}
    (found : readBlock? text = some (last, content, rest)) : rest.length < text.length := by
  unfold readBlock? at found
  split at found
  · simp only [Option.ite_none_left_eq_some, Option.some.injEq, Prod.mk.injEq] at found
    obtain ⟨_, _, _, dropped⟩ := found
    rw [← dropped]
    simp only [List.length_drop, List.length_cons]
    omega
  · simp at found

def readBody? (text : Bytes) : Option (Bytes × Bytes) :=
  match _ : readBlock? text with
  | none => none
  | some (true, content, rest) => some (content, rest)
  | some (false, content, rest) =>
      (readBody? rest).map fun (more, rest) => (content ++ more, rest)
termination_by text.length
decreasing_by exact length_lt_of_readBlock? ‹_›

theorem readBlock?_storedBlock (last : Bool) (content rest : Bytes)
    (small : content.length ≤ 0xffff) :
    readBlock? (storedBlock last content ++ rest) = some (last, content, rest) := by
  have low : Bytes.ofLittleEndian (Bytes.littleEndian 2 content.length) = content.length := by
    rw [Bytes.ofLittleEndian_littleEndian]
    exact Nat.mod_eq_of_lt (Nat.lt_succ_of_le small)
  have high : Bytes.ofLittleEndian (Bytes.littleEndian 2 (0xffff - content.length)) =
      0xffff - content.length := by
    rw [Bytes.ofLittleEndian_littleEndian]
    exact Nat.mod_eq_of_lt (Nat.lt_succ_of_le (Nat.sub_le 0xffff content.length))
  have whole : content.length + (0xffff - content.length) = 0xffff := by omega
  simp only [Bytes.littleEndian] at low high
  cases last <;>
    simp [storedBlock, Bytes.littleEndian, readBlock?, low, high, whole]

theorem readBody?_body (content rest : Bytes) :
    readBody? (body content ++ rest) = some (content, rest) := by
  fun_induction body content with
  | case1 content small =>
      have fits : content.length ≤ 0xffff := by
        simp only [blockSize] at small
        omega
      rw [readBody?]
      split
      · next none => simp [readBlock?_storedBlock true content rest fits] at none
      · next found =>
          rw [readBlock?_storedBlock true content rest fits] at found
          simp_all
      · next found =>
          rw [readBlock?_storedBlock true content rest fits] at found
          simp_all
  | case2 content full ih =>
      have fits : (content.take blockSize).length ≤ 0xffff := by
        simp only [List.length_take, blockSize]
        omega
      have block := readBlock?_storedBlock false (content.take blockSize)
        (body (content.drop blockSize) ++ rest) fits
      rw [readBody?]
      split
      · next none => simp [block] at none
      · next found => simp [block] at found
      · next found =>
          simp only [List.append_assoc, block, Option.some.injEq, Prod.mk.injEq, true_and] at found
          obtain ⟨first, second⟩ := found
          rw [← first, ← second, ih]
          simp

theorem length_le_of_readBlock? {text : Bytes} {last : Bool} {content rest : Bytes}
    (found : readBlock? text = some (last, content, rest)) :
    content.length + rest.length ≤ text.length := by
  unfold readBlock? at found
  split at found
  · simp only [Option.ite_none_left_eq_some, Option.some.injEq, Prod.mk.injEq] at found
    obtain ⟨_, _, rfl, rfl⟩ := found
    simp only [List.length_take, List.length_drop, List.length_cons]
    omega
  · simp at found

theorem length_le_of_readBody? {text content rest : Bytes}
    (found : readBody? text = some (content, rest)) :
    content.length + rest.length ≤ text.length := by
  fun_induction readBody? text generalizing content rest with
  | case1 text none => cases found
  | case2 text first behind block =>
      cases found
      exact length_le_of_readBlock? block
  | case3 text first behind block ih =>
      obtain ⟨⟨more, last⟩, later, same⟩ := Option.map_eq_some_iff.mp found
      cases same
      have front := length_le_of_readBlock? block
      have back := ih later
      rw [List.length_append]
      omega

theorem length_body_le (content : Bytes) : (body content).length ≤ 2 * content.length + 5 := by
  fun_induction body content with
  | case1 content small =>
      simp [storedBlock]
      omega
  | case2 content full ih =>
      simp [storedBlock, blockSize] at ih full ⊢
      omega

end Deflate.Stored

instance Deflate.stored : Deflate where
  encode _ content := Deflate.Stored.body content
  decode? := Deflate.Stored.readBody?
  decode?_encode _ := Deflate.Stored.readBody?_body

end UpdateArtifact
