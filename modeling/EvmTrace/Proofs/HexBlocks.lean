import EvmTrace.Proofs.Comparisons

/-!
# Hexadecimal through a buffer

Long bytes are written block by block through one buffer. None of what an earlier block has left in
it gets into a later one, so the text is the plain one, and everything that is written in
hexadecimal can be read back.
-/
namespace EvmTrace

namespace Hex

/-- The digits, in lower case. -/
def alphabet : Bytes := Bytes.ofText "0123456789abcdef"

theorem digit_mem_alphabet : ∀ n < 16, digit n ∈ alphabet := by decide

theorem mem_alphabet_of_mem_encode {b : Bytes} {c : UInt8} (h : c ∈ encode b) : c ∈ alphabet := by
  obtain ⟨n, hn, rfl⟩ := exists_digit_of_mem_encode h
  exact digit_mem_alphabet n hn

theorem isSome_text?_encode (b : Bytes) : (Bytes.text? (encode b)).isSome = true := by
  rw [← Bytes.ofText_ascii (isGraphic_encode b), Bytes.text?_ofText, Option.isSome_some]

/-- Passes blocks through a buffer and looks at all that could go wrong: the digits of a block have
to fill the part of the buffer that is set apart for them, and what comes out has to be text. -/
def passChecked? (buffer : Bytes) : List Bytes → Option (List Bytes)
  | [] => some []
  | block :: rest =>
    let filled := overwrite buffer (encode block)
    let piece := filled.take (2 * block.length)
    if (buffer.take (2 * block.length)).length = (encode block).length ∧
        (Bytes.text? piece).isSome then
      (passChecked? filled rest).map (piece :: ·)
    else none

theorem passChecked?_eq {buffer : Bytes} {bs : List Bytes}
    (h : ∀ block ∈ bs, 2 * block.length ≤ buffer.length) :
    passChecked? buffer bs = some (passBlocks buffer bs) := by
  induction bs generalizing buffer with
  | nil => rfl
  | cons block bs ih =>
    obtain ⟨hblock, hlater⟩ := List.forall_mem_cons.mp h
    have hfits : (encode block).length ≤ buffer.length := by rwa [length_encode]
    have hpart : (buffer.take (2 * block.length)).length = (encode block).length := by
      rw [List.length_take, length_encode, Nat.min_eq_left hblock]
    have hpiece : (overwrite buffer (encode block)).take (2 * block.length) = encode block := by
      rw [← length_encode, take_overwrite hfits]
    have hrest := @ih (overwrite buffer (encode block)) (by rwa [length_overwrite hfits])
    rw [passChecked?, passBlocks, hrest, hpiece, if_pos ⟨hpart, isSome_text?_encode block⟩]
    rfl

end Hex

namespace Field

theorem encodeBytes_eq (b : Bytes) : encodeBytes b = if b = [] then sentinel else Hex.encode b := by
  split_ifs with h
  · rw [h]
    rfl
  · exact encodeBytes_of_ne_nil h

theorem encodeBytes_eq_sentinel_iff (b : Bytes) : encodeBytes b = sentinel ↔ b = [] := by
  rw [encodeBytes_eq]
  split_ifs with h
  · simp [h]
  · simp [h, hex_ne_sentinel]

theorem encodeHashes_eq_sentinel_iff (hs : List Hash) : encodeHashes hs = sentinel ↔ hs = [] := by
  constructor
  · contrapose
    exact encodeHashes_ne_sentinel
  · rintro rfl
    rfl

end Field

/-- What is written through the buffer is the plain hexadecimal text: no check fails on the way, it
has two lowercase digits for each byte, and is read back as the bytes. Fields have the sentinel in
place of no bytes and of no hashes, and for nothing else. -/
theorem Hex.buffer_leaves_no_trace :
    (∀ b : Bytes,
      Hex.passChecked? Hex.newBuffer (Hex.blocks (Hex.blockSize - 1) b) =
          some (Hex.encodedBlocks b) ∧
        Hex.encodeBlocks b = Hex.encode b ∧
        (Hex.encodeBlocks b).length = 2 * b.length ∧
        (∀ c ∈ Hex.encodeBlocks b, c ∈ Hex.alphabet) ∧
        Hex.decode? (Hex.encodeBlocks b) = some b ∧
        (Field.bytes b).encode = (if b = [] then Field.sentinel else Hex.encode b) ∧
        ((Field.bytes b).encode = Field.sentinel ↔ b = [])) ∧
      ∀ hs : List Hash,
        Field.readHashes? (Field.hashes hs).encode = some hs ∧
          ((Field.hashes hs).encode = Field.sentinel ↔ hs = []) := by
  refine ⟨fun b => ?_, fun hs => ⟨Field.readHashes?_encode hs, ?_⟩⟩
  · have hplain := Hex.encodeBlocks_eq b
    refine ⟨Hex.passChecked?_eq fun _ => Hex.fits_of_mem_blocks, hplain, ?_, ?_, ?_,
      Field.encodeBytes_eq b, Field.encodeBytes_eq_sentinel_iff b⟩
    · rw [hplain, Hex.length_encode]
    · rw [hplain]
      exact fun _ => Hex.mem_alphabet_of_mem_encode
    · rw [hplain, Hex.decode?_encode]
  · exact Field.encodeHashes_eq_sentinel_iff hs

end EvmTrace
