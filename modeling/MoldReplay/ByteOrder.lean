import MoldReplay.Framing

/- Hosts of either byte order. binary_io asks for the order of the host before it swaps,
   extract_timestamp swaps in any case. -/
namespace MoldByteOrder
open FixedBytes MoldWire MoldFraming

def spanOf (buf : List UInt8) (i : Nat) : UInt8 := buf.getD i 0

/-- What it means for a host to read and write a buffer in network order: fields of any
    width at any place in it, and the timestamp of a message that starts with the buffer. -/
structure NetworkOrder (host : Endian) (buf : List UInt8) : Prop where
  reads : ∀ width pos, pos + width ≤ buf.length →
    readBe host width buf pos = (natBE ((buf.drop pos).take width), pos + width)
  returns : ∀ width pos value, pos + width ≤ buf.length → value < 256 ^ width →
    readBe host width (writeBe host width buf pos value).1 pos = (value, pos + width)
  keeps : ∀ width pos value, pos + width ≤ buf.length → ∀ i, i < pos ∨ pos + width ≤ i →
    (writeBe host width buf pos value).1[i]? = buf[i]?
  timestamp : timestampOffset + timestampSize ≤ buf.length →
    extractTimestamp host (spanOf buf) = natBE ((buf.drop timestampOffset).take timestampSize)
  small : timestampOffset + timestampSize ≤ buf.length →
    extractTimestamp host (spanOf buf) < 2 ^ 48

variable {host : Endian} {buf : List UInt8} {width pos : Nat}

theorem written_length (inside : pos + width ≤ buf.length) (value : Nat) :
    (writeBe host width buf pos value).1.length = buf.length := by
  rw [writeBe_eq]
  simp only [List.length_append, List.length_take, List.length_drop, bytesBE_length]
  omega

theorem written_field (inside : pos + width ≤ buf.length) (value : Nat) :
    ((writeBe host width buf pos value).1.drop pos).take width = bytesBE width value := by
  have field := read_field (buf.take pos) (bytesBE width value) (buf.drop (pos + width))
  rw [bytesBE_length, List.length_take_of_le (by omega)] at field
  rw [writeBe_eq, field]

theorem written_read (inside : pos + width ≤ buf.length) {value : Nat}
    (bound : value < 256 ^ width) :
    readBe host width (writeBe host width buf pos value).1 pos = (value, pos + width) := by
  rw [readBe_eq host (by rwa [written_length inside]), written_field inside,
    natBE_bytesBE width value bound]

theorem written_elsewhere (inside : pos + width ≤ buf.length) (value : Nat) {i : Nat}
    (elsewhere : i < pos ∨ pos + width ≤ i) :
    (writeBe host width buf pos value).1[i]? = buf[i]? := by
  have front : (buf.take pos).length = pos := List.length_take_of_le (by omega)
  rw [writeBe_eq]
  rcases elsewhere with before | behind
  · rw [List.append_assoc, List.getElem?_append_left (by omega), List.getElem?_take_of_lt before]
  · have written : (buf.take pos ++ bytesBE width value).length = pos + width := by
      rw [List.length_append, front, bytesBE_length]
    rw [List.getElem?_append_right (by omega), written, List.getElem?_drop,
      Nat.add_sub_cancel' behind]

theorem copied_bytes (enough : timestampOffset + timestampSize ≤ buf.length) :
    (List.range timestampSize).map (fun i => spanOf buf (timestampOffset + i)) =
      (buf.drop timestampOffset).take timestampSize := by
  refine bytes_loaded fun i small => ?_
  have inside : timestampOffset + i < buf.length := by omega
  rw [spanOf, List.getD_eq_getElem?_getD, List.getElem?_eq_getElem inside]
  rfl

theorem timestamp_small (host : Endian) (data : Nat → UInt8) :
    extractTimestamp host data < 2 ^ 48 := by
  cases host with
  | little =>
    have bound := natBE_lt ((List.range timestampSize).map fun i => data (timestampOffset + i))
    rwa [← extractTimestamp_little, List.length_map, List.length_range] at bound
  | big =>
    have bound :=
      natLE_lt (((List.range timestampSize).map fun i => data (timestampOffset + i)).drop 2)
    rw [← extractTimestamp_big, List.length_drop, List.length_map, List.length_range] at bound
    exact bound.trans (by decide)

theorem little_timestamp (enough : timestampOffset + timestampSize ≤ buf.length) :
    extractTimestamp .little (spanOf buf) =
      natBE ((buf.drop timestampOffset).take timestampSize) := by
  rw [extractTimestamp_little, copied_bytes enough]

theorem big_timestamp_iff (enough : timestampOffset + timestampSize ≤ buf.length) :
    extractTimestamp .big (spanOf buf) =
        natBE ((buf.drop timestampOffset).take timestampSize) ↔
      (buf.drop 5).take 2 = [0, 0] ∧ ((buf.drop 7).take 4).reverse = (buf.drop 7).take 4 := by
  have fields : (buf.drop timestampOffset).take timestampSize =
      (buf.drop 5).take 2 ++ (buf.drop 7).take 4 := by
    have split := List.take_add (l := buf.drop 5) (i := 2) (j := 4)
    rwa [List.drop_drop] at split
  have high : ((buf.drop 5).take 2).length = 2 := by
    simp only [timestampOffset, timestampSize] at enough
    simp only [List.length_take, List.length_drop]
    omega
  have low := natLE_low_iff ((buf.drop 5).take 2) ((buf.drop 7).take 4)
  rw [high] at low
  rw [extractTimestamp_big, copied_bytes enough, fields, List.drop_left' high]
  exact low

/-- Fields come out right on any host. So does a timestamp, unless the host is a big one and
    the timestamp has something to lose. -/
theorem network_order_iff (host : Endian) (buf : List UInt8) :
    NetworkOrder host buf ↔
      (host = .big → timestampOffset + timestampSize ≤ buf.length →
        (buf.drop 5).take 2 = [0, 0] ∧ ((buf.drop 7).take 4).reverse = (buf.drop 7).take 4) := by
  constructor
  · rintro ordered rfl enough
    exact (big_timestamp_iff enough).mp (ordered.timestamp enough)
  · intro alike
    refine {
      reads := fun _ _ inside => readBe_eq host inside
      returns := fun _ _ _ inside bound => written_read inside bound
      keeps := fun _ _ value inside _ elsewhere => written_elsewhere inside value elsewhere
      timestamp := ?timestamp
      small := fun _ => timestamp_small host (spanOf buf) }
    case timestamp =>
      intro enough
      cases host with
      | little => exact little_timestamp enough
      | big => exact (big_timestamp_iff enough).mpr (alike rfl enough)

/-- The bytes 0 to 5, read as 0x05040302. -/
theorem big_host_reads_backwards :
    extractTimestamp .big (spanOf [0, 0, 0, 0, 0, 0x00, 0x01, 0x02, 0x03, 0x04, 0x05]) =
      0x05040302 ∧
    ¬ NetworkOrder .big [0, 0, 0, 0, 0, 0x00, 0x01, 0x02, 0x03, 0x04, 0x05] := by
  refine ⟨by decide, fun ordered => ?_⟩
  have read := ordered.timestamp (by decide)
  exact absurd read (by decide)

end MoldByteOrder
