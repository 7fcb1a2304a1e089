/-
  TagExpander.Proofs.Markup.Offsets — markers read by byte positions.

  The readers of markers, as readers that count in bytes.  A marker is taken apart at
  positions that are found one after the other:

      <?# Name args ?>
      ↑  ↑↑   ↑     ↑ ↑
      │  │└ name ┘  │ └ stop, two bytes behind the end that is found byte by byte
      start  └ blanks, as many bytes as trimming takes off

  At a cursor of the text every cut is good, and what is read is the marker that stands
  there.  So the search for the end of a raw tag, which goes from marker to marker, finds the
  same end, and each of its rounds moves forward.

  Main results:
    * `cutMarker_eq` — the marker at a cursor.
    * `closerRound_advances` — the search for the end of a raw tag.
-/
import TagExpander.Proofs.Argument.Offsets
import TagExpander.Proofs.Markup.Quoting
import TagExpander.Proofs.Markup.Terminator
import TagExpander.Proofs.Markup.Walk

namespace TagExpander.Markup

open Text (Slip cutFrom findChar startsWith trimStart At advance Advances)

/-! ## §1. Cursors as positions. -/

namespace Cursor

variable {text : String} {c d : Cursor}

/-- The second cursor is the first one, moved. -/
def Before (c d : Cursor) : Prop :=
  ∃ n, d = c.skip n

theorem Before.refl (c : Cursor) : c.Before c := by
  refine ⟨0, ?_⟩
  obtain ⟨chars, bytes, newlines, rest⟩ := c
  rfl

theorem Before.trans {e : Cursor} (h : c.Before d) (h' : d.Before e) : c.Before e := by
  obtain ⟨n, rfl⟩ := h
  obtain ⟨k, rfl⟩ := h'
  exact ⟨n + k, skip_skip c n k⟩

theorem before_skip (c : Cursor) (n : Nat) : c.Before (c.skip n) :=
  ⟨n, rfl⟩

theorem before_of_seek {mark : Cursor} (h : c.seek = some mark) : c.Before mark := by
  obtain ⟨n, rfl, -⟩ := seek_eq_some_iff.1 h
  exact before_skip c n

/-- The position of a moved cursor. -/
theorem bytes_skip (c : Cursor) (n : Nat) :
    (c.skip n).bytes = c.bytes + Text.bytes (c.rest.take n) := rfl

/-- What follows a cursor of a text follows its position. -/
theorem On.at (h : c.On text.toList) : At text c.bytes c.rest := by
  obtain ⟨n, -, rfl⟩ := h
  exact ⟨text.toList.take n, (List.take_append_drop n _).symm, Nat.zero_add _⟩

/-- The text between two cursors can be cut out. -/
theorem On.cut (h : c.On text.toList) (hd : c.Before d) :
    Text.cut text c.bytes d.bytes = .ok (String.ofList (c.upTo d)) := by
  obtain ⟨n, rfl⟩ := hd
  have hat := h.at
  rw [← List.take_append_drop n c.rest] at hat
  rw [upTo_skip]
  exact hat.cut

theorem On.before (h : c.On text.toList) : (start text.toList).Before c := by
  obtain ⟨n, -, rfl⟩ := h
  exact before_skip _ n

/-- Lines are counted on by what is passed. -/
theorem Before.line_eq (h : c.Before d) :
    d.line = c.line + Text.newlines (c.upTo d) := by
  obtain ⟨n, rfl⟩ := h
  rw [upTo_skip]
  show c.newlines + Text.newlines (c.rest.take n) + 1 = c.newlines + 1 + _
  omega

/-- A move over something is a move forward in bytes. -/
theorem bytes_skip_lt {n : Nat} (hn : 0 < n) (hc : c.rest ≠ []) : c.bytes < (c.skip n).bytes := by
  have hpos : 0 < Text.bytes (c.rest.take n) := by
    refine Text.bytes_pos ?_
    rw [Ne, List.take_eq_nil_iff]
    exact fun h => h.elim (Nat.pos_iff_ne_zero.1 hn) hc
  exact Nat.lt_add_of_pos_right hpos

theorem Before.bytes_le (h : c.Before d) : c.bytes ≤ d.bytes := by
  obtain ⟨n, rfl⟩ := h
  exact Nat.le_add_right _ _

/-- A cursor that is moved stays in its text. -/
theorem On.of_before (h : c.On text.toList) (hd : c.Before d) : d.On text.toList := by
  obtain ⟨n, rfl⟩ := hd
  rcases Nat.le_total n c.rest.length with hn | hn
  · exact h.skip hn
  · have hend : c.skip n = c.skip c.rest.length := by
      rw [Cursor.skip, Cursor.skip, List.take_of_length_le hn, List.take_length,
        List.drop_of_length_le hn, List.drop_length]
    rw [hend]
    exact h.skip (Nat.le_refl _)

/-- The next marker stands in the text. -/
theorem On.of_seek {mark : Cursor} (h : c.On text.toList) (hs : c.seek = some mark) :
    mark.On text.toList :=
  h.of_before (before_of_seek hs)

/-- Over a part of the next marker is forward. -/
theorem bytes_lt_of_seek {mark : Cursor} {n : Nat} (h : c.seek = some mark) (hn : 0 < n) :
    c.bytes < (mark.skip n).bytes :=
  Nat.lt_of_le_of_lt (before_of_seek h).bytes_le
    (bytes_skip_lt hn (rest_ne_nil_of_seek h))

/-- Wherever a text goes on, a cursor can stand. -/
theorem exists_on_of_at {position : Nat} {rest : List Char} (h : At text position rest) :
    ∃ c : Cursor, c.On text.toList ∧ c.bytes = position ∧ c.rest = rest := by
  obtain ⟨front, htext, rfl⟩ := h
  have hlength : front.length ≤ text.toList.length := by
    rw [htext, List.length_append]
    exact Nat.le_add_right _ _
  refine ⟨(start text.toList).skip front.length, ⟨front.length, hlength, rfl⟩, ?_, ?_⟩
  · rw [bytes_skip, start, htext, List.take_left, Nat.zero_add]
  · rw [rest_skip, start, htext, List.drop_left]

theorem On.bytes_le_size (h : c.On text.toList) : c.bytes ≤ text.utf8ByteSize := by
  rw [h.at.utf8ByteSize_eq]
  exact Nat.le_add_right _ _

end Cursor

/-! ## §2. Markers. -/

/-- A marker, with the positions at which it starts and ends. -/
structure MarkerAt where
  role : Role
  name : String
  arguments : String
  start : Nat
  stop : Nat

/-- The marker at a cursor. -/
def MarkerAt.ofMarker (m : Marker) (mark : Cursor) : MarkerAt :=
  ⟨m.role, m.name, m.arguments, mark.bytes, (mark.skip m.length).bytes⟩

/-- Reads the name that stands at a position, behind blanks; returns it and the position behind
    it. -/
def cutName (text : String) (position : Nat) : Except Slip (String × Nat) := do
  let behind ← cutFrom text position
  let start := position + (behind.utf8ByteSize - (trimStart behind).utf8ByteSize)
  let named ← cutFrom text start
  let length := findChar (fun c => !isNameChar c) named
  return (← Text.cut named 0 length, start + length)

/-- Reads what stands between the name of a marker and its end. -/
def cutBody (text : String) (closing : Bool) (start : Nat) (name : String) (position : Nat) :
    Except Slip (Except (String × Fault) MarkerAt) :=
  match byteTerminator text position with
  | none => .ok (.error (name, .unterminated))
  | some stop => do
    let body ← Text.cut text position stop
    if closing then
      if Text.allBlank body.toList then return .ok ⟨.closing, name, "", start, stop + 2⟩
      else return .error (name, .closerWithArguments)
    else
      let (role, arguments) := Marker.splitBody body.toList
      return .ok ⟨role, name, String.ofList arguments, start, stop + 2⟩

/-- Reads the rest of the marker that starts at `start`, from the blanks in front of its name
    on. -/
def cutNamed (text : String) (closing : Bool) (start position : Nat) :
    Except Slip (Except (String × Fault) MarkerAt) := do
  let (name, behind) ← cutName text position
  if name.isEmpty then return .error ("", .missingName)
  else cutBody text closing start name behind

/-- Reads the marker that starts at a position. -/
def cutMarker (text : String) (start : Nat) :
    Except Slip (Except (String × Fault) MarkerAt) := do
  if startsWith (· == '/') (← cutFrom text (start + 3)) then
    cutNamed text true start (start + 4)
  else cutNamed text false start (start + 3)

section Markers

variable {text : String} {position : Nat} {cs : List Char}

/-- The name of a marker is read, and behind it stands the rest. -/
theorem cutName_eq (h : At text position cs) :
    let behind := position + Text.bytes (cs.takeWhile Text.isBlank) +
      Text.bytes ((Text.trimLeft cs).takeWhile isNameChar)
    cutName text position =
        .ok (String.ofList ((Text.trimLeft cs).takeWhile isNameChar), behind) ∧
      At text behind ((Text.trimLeft cs).dropWhile isNameChar) := by
  have hparts := Text.trimLeft_append cs
  have hnamed : At text (position + Text.bytes (cs.takeWhile Text.isBlank)) (Text.trimLeft cs) :=
    At.skip (hparts.symm ▸ h)
  have hstart : position + ((String.ofList cs).utf8ByteSize -
      (trimStart (String.ofList cs)).utf8ByteSize) =
        position + Text.bytes (cs.takeWhile Text.isBlank) := by
    have hbytes := congrArg Text.bytes hparts
    rw [Text.bytes_append] at hbytes
    rw [trimStart, String.toList_ofList, Text.utf8ByteSize_ofList, Text.utf8ByteSize_ofList]
    omega
  have hlength : findChar (fun c => !isNameChar c) (String.ofList (Text.trimLeft cs)) =
      Text.bytes ((Text.trimLeft cs).takeWhile isNameChar) := by
    rw [Text.findChar_ofList]
    simp only [Bool.not_not]
  have hname := (Text.at_zero_ofList (Text.trimLeft cs)).cut_takeWhile isNameChar
  rw [Nat.zero_add] at hname
  refine ⟨?_, hnamed.skip_takeWhile isNameChar⟩
  rw [cutName, h.cutFrom, Text.ok_bind, hstart]
  dsimp only
  rw [hnamed.cutFrom, Text.ok_bind, hlength, hname]
  rfl

/-- The end of a marker stands two bytes behind the end of its body. -/
theorem bytes_take_terminator {n : Nat} (h : terminator cs = some n) :
    Text.bytes (cs.take (n + 2)) = Text.bytes (cs.take n) + 2 := by
  obtain ⟨more, hmore⟩ := endsMarker_iff.1 (isOutside_of_terminatorFrom h).2
  rw [Nat.sub_zero] at hmore
  rw [List.take_add, Text.bytes_append, ← hmore]
  rfl

/-- A marker that ends has its body cut out in front of its end. -/
theorem cutBody_eq (h : At text position cs) (closing : Bool) (start : Nat) (name : String) :
    cutBody text closing start name position =
      .ok (match terminator cs with
        | none => .error (name, .unterminated)
        | some n =>
          if closing then
            if Text.allBlank (cs.take n) then
              .ok ⟨.closing, name, "", start, position + Text.bytes (cs.take (n + 2))⟩
            else .error (name, .closerWithArguments)
          else .ok ⟨(Marker.splitBody (cs.take n)).1, name,
            String.ofList (Marker.splitBody (cs.take n)).2, start,
            position + Text.bytes (cs.take (n + 2))⟩) := by
  rw [cutBody, byteTerminator_at h]
  cases hend : terminator cs with
  | none => rfl
  | some n =>
      have hbody : At text position (cs.take n ++ cs.drop n) := by
        rwa [List.take_append_drop]
      rw [Option.map_some]
      dsimp only
      rw [hbody.cut, Text.ok_bind, String.toList_ofList, bytes_take_terminator hend,
        ← Nat.add_assoc]
      cases closing with
      | true =>
          rw [if_pos rfl, if_pos rfl]
          split <;> rfl
      | false => rfl

/-- The bytes of the blanks in front of a name, of the name, and of what is taken behind it. -/
theorem bytes_take_parts (cs : List Char) (n : Nat) :
    Text.bytes (cs.take ((cs.takeWhile Text.isBlank).length +
        ((Text.trimLeft cs).takeWhile isNameChar).length + n)) =
      Text.bytes (cs.takeWhile Text.isBlank) +
        Text.bytes ((Text.trimLeft cs).takeWhile isNameChar) +
        Text.bytes (((Text.trimLeft cs).dropWhile isNameChar).take n) := by
  have hparts : cs.takeWhile Text.isBlank ++ (Text.trimLeft cs).takeWhile isNameChar ++
      (Text.trimLeft cs).dropWhile isNameChar = cs := by
    rw [List.append_assoc, List.takeWhile_append_dropWhile, Text.trimLeft_append]
  have htake : cs.take ((cs.takeWhile Text.isBlank ++
      (Text.trimLeft cs).takeWhile isNameChar).length + n) =
        cs.takeWhile Text.isBlank ++ (Text.trimLeft cs).takeWhile isNameChar ++
          ((Text.trimLeft cs).dropWhile isNameChar).take n := by
    rw [← List.take_length_add_append, hparts]
  rw [List.length_append] at htake
  rw [htake, Text.bytes_append, Text.bytes_append]

/-- **The rest of a marker is read from the text that follows a position.** -/
theorem cutNamed_eq (h : At text position cs) (closing : Bool) (start before : Nat) :
    cutNamed text closing start position =
      .ok ((Marker.readNamed closing before cs).map fun m =>
        ⟨m.role, m.name, m.arguments, start,
          position + Text.bytes (cs.take (m.length - before))⟩) := by
  obtain ⟨hname, hbehind⟩ := cutName_eq h
  have hstop (n : Nat) : position + Text.bytes (cs.take (before +
      (cs.takeWhile Text.isBlank).length + ((Text.trimLeft cs).takeWhile isNameChar).length +
        n + 2 - before)) =
      position + Text.bytes (cs.takeWhile Text.isBlank) +
        Text.bytes ((Text.trimLeft cs).takeWhile isNameChar) +
        Text.bytes (((Text.trimLeft cs).dropWhile isNameChar).take (n + 2)) := by
    have hbytes := bytes_take_parts cs (n + 2)
    rw [show before + (cs.takeWhile Text.isBlank).length +
      ((Text.trimLeft cs).takeWhile isNameChar).length + n + 2 - before =
        (cs.takeWhile Text.isBlank).length +
          ((Text.trimLeft cs).takeWhile isNameChar).length + (n + 2) by omega, hbytes]
    omega
  rw [cutNamed, hname, Text.ok_bind, Marker.readNamed]
  dsimp only
  split
  · rfl
  · rw [cutBody_eq hbehind]
    cases terminator ((Text.trimLeft cs).dropWhile isNameChar) with
    | none => rfl
    | some n =>
        dsimp only
        rw [← hstop n]
        cases closing with
        | true =>
            rw [if_pos rfl, if_pos rfl]
            split <;> rfl
        | false => rfl

/-- **The marker at a cursor is read at its position.** -/
theorem cutMarker_eq {mark : Cursor} (h : mark.On text.toList)
    (hstarts : startsMarker mark.rest = true) :
    cutMarker text mark.bytes =
      .ok ((Marker.read mark.rest).map fun m => .ofMarker m mark) := by
  obtain ⟨more, hmore⟩ := startsMarker_iff.1 hstarts
  have hbehind : At text (mark.bytes + 3) more := At.skip (hmore.symm ▸ h.at)
  -- the length of the marker is counted from its start, and that of its rest from here
  have hstop (front rest : List Char) (m : Marker) (hrest : mark.rest = front ++ rest)
      (hlength : front.length ≤ m.length) :
      mark.bytes + Text.bytes front + Text.bytes (rest.take (m.length - front.length)) =
        (mark.skip m.length).bytes := by
    rw [Cursor.bytes_skip, hrest, List.take_append, List.take_of_length_le hlength,
      Text.bytes_append, Nat.add_assoc]
  have hnamed (closing : Bool) (front rest : List Char) (hrest : mark.rest = front ++ rest) :
      cutNamed text closing mark.bytes (mark.bytes + Text.bytes front) =
        .ok ((Marker.readNamed closing front.length rest).map fun m => .ofMarker m mark) := by
    have hat : At text (mark.bytes + Text.bytes front) rest := At.skip (hrest ▸ h.at)
    rw [cutNamed_eq hat closing mark.bytes front.length]
    cases hread : Marker.readNamed closing front.length rest with
    | error fault => rfl
    | ok m =>
        have hlength := Nat.le_of_lt (Marker.lt_length_readNamed hread)
        rw [Except.map, Except.map, hstop front rest m hrest hlength]
        rfl
  have hopening := hnamed false markerStart more hmore.symm
  rw [cutMarker, hbehind.cutFrom, Text.ok_bind]
  cases more with
  | nil =>
      rw [← hmore]
      exact hopening
  | cons c rest =>
      have hdrop : mark.rest.drop 3 = c :: rest := by rw [← hmore]; rfl
      rw [Text.startsWith_ofList_cons, Marker.read_of_drop_eq_cons hdrop]
      by_cases hc : c = '/'
      · subst hc
        rw [if_pos (beq_self_eq_true _), if_pos rfl]
        exact hnamed true (markerStart ++ ['/']) rest (by rw [← hmore, List.append_assoc]; rfl)
      · rw [if_neg (by rwa [beq_iff_eq]), if_neg hc]
        exact hopening

end Markers

/-! ## §3. The end of a raw tag. -/

/-- The position of the next marker. -/
def nextMarker (text : String) (position : Nat) : Except Slip (Option Nat) := do
  let ahead ← cutFrom text position
  return (Text.find startsMarker ahead.toList).map (position + ·)

/-- One round of the search for the end of a raw tag: gives the positions of its closing marker,
    or goes on behind the next marker, or behind its start if it does not read as one. -/
def closerRound (text name : String) (position : Nat) :
    Except Slip (Nat ⊕ Option (Nat × Nat)) := do
  match ← nextMarker text position with
  | none => return .inr none
  | some start =>
    match ← cutMarker text start with
    | .error _ => return .inl (start + 3)
    | .ok m =>
      if m.role == .closing && Text.same m.name name then return .inr (some (m.start, m.stop))
      else return .inl m.stop

/-- The positions at which the closing marker of a raw tag starts and ends. -/
def cutCloser (text name : String) (position : Nat) : Except Slip (Option (Nat × Nat)) :=
  advance id text.utf8ByteSize (closerRound text name) position

section Closers

variable {text : String} {c mark : Cursor}

/-- A search in a text stops at the first marker in it. -/
theorem find_startsMarker (n : Nat) (cs : List Char) :
    Text.find startsMarker cs =
      (Cursor.markerFrom n cs).map fun k => Text.bytes (cs.take (k - n)) := by
  induction cs generalizing n with
  | nil => rfl
  | cons c cs ih =>
      rw [Text.find, Cursor.markerFrom]
      split
      · rw [Option.map_some, Nat.sub_self]
        rfl
      · rw [ih (n + 1), Option.map_map]
        refine Option.map_congr fun k hk => ?_
        have hle := (Cursor.markerFrom_eq_some hk).1
        rw [show k - n = (k - (n + 1)) + 1 by omega, List.take_succ_cons, Text.bytes_cons]
        rfl

/-- The next marker is found at the position of its cursor. -/
theorem nextMarker_eq (h : c.On text.toList) :
    nextMarker text c.bytes = .ok (c.seek.map Cursor.bytes) := by
  rw [nextMarker, h.at.cutFrom, Text.ok_bind, String.toList_ofList, find_startsMarker 0,
    Option.map_map, Cursor.seek, Option.map_map]
  rfl

/-- The start of a marker takes up three bytes. -/
theorem bytes_skip_three (h : startsMarker mark.rest = true) :
    (mark.skip 3).bytes = mark.bytes + 3 := by
  obtain ⟨more, hmore⟩ := startsMarker_iff.1 h
  rw [Cursor.bytes_skip, ← hmore]
  rfl

/-- A round of the search, at a marker. -/
theorem closerRound_of_seek (name : String) (h : c.On text.toList) (hs : c.seek = some mark) :
    closerRound text name c.bytes =
      .ok (match Marker.read mark.rest with
        | .error _ => .inl (mark.skip 3).bytes
        | .ok m =>
          if m.role == .closing && Text.same m.name name then
            .inr (some (mark.bytes, (mark.skip m.length).bytes))
          else .inl (mark.skip m.length).bytes) := by
  have hmark := h.of_seek hs
  have hstarts := Cursor.startsMarker_of_seek hs
  rw [closerRound, nextMarker_eq h, hs, Option.map_some, Text.ok_bind]
  dsimp only
  rw [cutMarker_eq hmark hstarts, Text.ok_bind]
  cases Marker.read mark.rest with
  | error fault =>
      rw [bytes_skip_three hstarts]
      rfl
  | ok m =>
      dsimp only [Except.map, MarkerAt.ofMarker]
      split <;> rfl

/-- **The search for the end of a raw tag takes finitely many rounds, each of them forward**, and
    ends at the same closing marker. -/
theorem closerRound_advances (name : String) (h : c.On text.toList) :
    Advances id text.utf8ByteSize (closerRound text name) c.bytes
      ((rawCloser name c).map fun (closer, stop) => (closer.bytes, stop.bytes)) := by
  fun_induction rawCloser name c with
  | case1 here hs =>
      refine .done ?_
      rw [closerRound, nextMarker_eq h, hs]
      rfl
  | case2 here mark hs fault hm ih =>
      have hnext := h.of_before ((Cursor.before_of_seek hs).trans (mark.before_skip 3))
      refine .round ?_ (Cursor.bytes_lt_of_seek hs (Nat.succ_pos 2)) hnext.bytes_le_size (ih hnext)
      rw [closerRound_of_seek name h hs, hm]
  | case3 here mark hs m hm hclose =>
      refine .done ?_
      rw [closerRound_of_seek name h hs, hm]
      exact congrArg Except.ok (if_pos hclose)
  | case4 here mark hs m hm hother ih =>
      have hlength := Marker.three_lt_length hm
      have hnext := h.of_before ((Cursor.before_of_seek hs).trans (mark.before_skip m.length))
      refine .round ?_ (Cursor.bytes_lt_of_seek hs (by omega)) hnext.bytes_le_size (ih hnext)
      rw [closerRound_of_seek name h hs, hm]
      exact congrArg Except.ok (if_neg hother)

theorem cutCloser_eq (name : String) (h : c.On text.toList) :
    cutCloser text name c.bytes =
      .ok ((rawCloser name c).map fun (closer, stop) => (closer.bytes, stop.bytes)) :=
  Text.advance_eq_ok_iff.2 (closerRound_advances name h)

end Closers

end TagExpander.Markup
