import GnssLink.Frame.Decoder

/-!
# Frames in a whole byte stream

What a byte stream holds can be read off the stream as a whole, without a state: at its start stands
a byte of noise, a broken synchronisation, a broken frame or a frame, and behind that the stream
goes on.  This view says which frames a decoder has to find.

## Main definitions

* `Stream.head` — what stands at the start of a stream, and how long it is.
* `Stream.scan` — everything that a stream holds, with the index of the byte that completes it.
* `Decoder.events` — what a decoder reports about a byte string, with the same indices.

## Main results

* `Decoder.feedAll_append` — a decoder does not see where a byte string was split.
-/

namespace GnssLink

namespace Stream

/-- What the two checksum bytes behind a payload of `n` bytes say.  `f` is the frame that they would
complete and `behind` the stream after its payload. -/
def verdict (f : Frame) (n : Nat) : Bytes → Option (Nat × Outcome)
  | [] => none
  | a :: behind =>
    let sum := Checksum.ofBytes f.body
    if a = sum.a then
      match behind with
      | [] => none
      | b :: _ =>
        if b = sum.b then some (n + 7, .frame f)
        else some (n + 7, .rejected (.checksumB sum.b b))
    else some (n + 6, .rejected (.checksumA sum.a a))

/-- What stands at the start of a stream: the index of its last byte, and what is reported there,
which is nothing for noise.  There is no answer if the stream ends before. -/
def head : Bytes → Option (Nat × Outcome)
  | [] => none
  | first :: rest =>
    if first = Frame.sync1 then
      match rest with
      | [] => none
      | second :: rest =>
        if second = Frame.sync2 then
          match rest with
          | cls :: id :: low :: high :: rest =>
            let n := LittleEndian.decode [low, high]
            if Frame.maxPayload < n then
              some (5, .rejected (.oversizedPayload (UInt16.ofNat n) Frame.maxPayload))
            else
              verdict ⟨⟨cls, id⟩, rest.take n⟩ n (rest.drop n)
          | _ => none
        else some (1, .pending)
    else some (0, .pending)

theorem head_nil : head [] = none := rfl

/-- Everything that a stream holds, with the index of the byte that completes it, counted from
`start`. -/
def scan (start : Nat) (stream : Bytes) : List (Nat × Outcome) :=
  match h : head stream with
  | none => []
  | some (last, outcome) =>
    have : (stream.drop (last + 1)).length < stream.length := by
      cases stream with
      | nil => simp [head_nil] at h
      | cons b rest =>
        simp only [List.length_drop, List.length_cons]
        omega
    let behind := scan (start + last + 1) (stream.drop (last + 1))
    if outcome = .pending then behind else (start + last, outcome) :: behind
termination_by stream.length

end Stream

namespace Decoder

/-- What a decoder reports about a byte string, with the index of the byte that brought it about,
counted from `start`. -/
def events (d : Decoder) (start : Nat) (bytes : Bytes) : List (Nat × Outcome) :=
  (((d.feedAll bytes).1.zipIdx start).filter (·.1 ≠ .pending)).map fun entry => (entry.2, entry.1)

theorem feedAll_cons (d : Decoder) (byte : UInt8) (rest : Bytes) :
    d.feedAll (byte :: rest) = ((d.feed byte).1 :: ((d.feed byte).2.feedAll rest).1,
      ((d.feed byte).2.feedAll rest).2) := rfl

theorem feedAll_append (d : Decoder) (xs ys : Bytes) :
    d.feedAll (xs ++ ys) =
      ((d.feedAll xs).1 ++ ((d.feedAll xs).2.feedAll ys).1, ((d.feedAll xs).2.feedAll ys).2) := by
  induction xs generalizing d with
  | nil => rfl
  | cons x rest ih => simp only [List.cons_append, feedAll, ih]

end Decoder

end GnssLink
