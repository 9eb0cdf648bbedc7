import CallStackLogger.Core.Checked

/-!
# The notes of a section

`cslg_notes_fit_section` of `src/backtraceExtension.c` walks the notes of a section before libbacktrace reads
them. `Notes` says what a sequence of notes is; the walk accepts exactly these. It reads only bytes of the
section, and every round of it gets further.
-/

namespace CallStackLogger

open Checked

/-! ### The walk -/

/-- `CSLG_NOTE_HEADER_SIZE`. -/
def noteHeaderSize : Nat := 12

/-- The contents of a section, whose size is a 64-bit field. -/
structure SectionContents where
  bytes : List UInt8
  length_lt : bytes.length < 2 ^ 64

/-- The padding of a note: 8 for sections aligned to 8. -/
def noteAlign (addralign : Nat) : Nat := if addralign = 8 then 8 else 4

/-- The `while` loop over the notes. -/
def notesLoop (view : List UInt8) (size align : Nat) : Nat → Nat → Except Fault Bool
  | 0, _             => .error .unending
  | fuel + 1, offset => do
    let left ← sub size offset
    if left < noteHeaderSize then return true
    let namesz ← field 4 view offset
    let descsz ← field 4 view (offset + 4)
    let descOffset ← roundUp (noteHeaderSize + namesz) align
    if left < descOffset then return false
    let room ← sub left descOffset
    if room < descsz then return false
    let stop ← roundUp (descOffset + descsz) align
    if left ≤ stop then return true
    let offset ← add offset stop
    notesLoop view size align fuel offset

/-- `cslg_notes_fit_section`; `mapped` says whether the section can be mapped. -/
def cslgNotesFitSection (mapped : Bool) (contents : SectionContents) (addralign : Nat) : Except Fault Bool :=
  let size := contents.bytes.length
  if size = 0 then return true
  else if size < noteHeaderSize then return false
  else if !mapped then return false
  else notesLoop contents.bytes size (noteAlign addralign) size 0

/-! ### The format -/

def namesz (header : List UInt8) : Nat := littleEndian (header.take 4)

def descsz (header : List UInt8) : Nat := littleEndian ((header.drop 4).take 4)

/-- A note up to the end of its descriptor; the name comes with its padding. -/
structure Note (align : Nat) where
  header : List UInt8
  name : List UInt8
  desc : List UInt8
  length_header : header.length = noteHeaderSize
  length_name : noteHeaderSize + name.length = ceil (noteHeaderSize + namesz header) align
  length_desc : desc.length = descsz header

namespace Note

variable {align : Nat} (n : Note align)

def bytes : List UInt8 := n.header ++ (n.name ++ n.desc)

/-- How many bytes fill the descriptor up. -/
def padding : Nat := ceil n.bytes.length align - n.bytes.length

end Note

/-- A sequence of notes. Behind the last one its padding may be missing, or up to eleven bytes be left. -/
inductive Notes (align : Nat) : List UInt8 → Prop
  | unpadded (n : Note align) (pad : List UInt8) (hpad : pad.length ≤ n.padding) : Notes align (n.bytes ++ pad)
  | last (n : Note align) (pad rest : List UInt8) (hpad : pad.length = n.padding)
      (hrest : rest.length < noteHeaderSize) : Notes align (n.bytes ++ (pad ++ rest))
  | more (n : Note align) (pad rest : List UInt8) (hpad : pad.length = n.padding) (hrest : Notes align rest) :
      Notes align (n.bytes ++ (pad ++ rest))

/-! ### The first note -/

section First

variable {align : Nat} {t : List UInt8}

/-- Where the descriptor of the note at the beginning of `t` starts. -/
def descOffset (align : Nat) (t : List UInt8) : Nat := ceil (noteHeaderSize + namesz t) align

/-- Where the padding of the note at the beginning of `t` ends. -/
def noteEnd (align : Nat) (t : List UInt8) : Nat := ceil (descOffset align t + descsz t) align

@[simp] lemma namesz_append {header rest : List UInt8} (h : header.length = noteHeaderSize) :
    namesz (header ++ rest) = namesz header := by
  rw [namesz, namesz, List.take_append_of_le_length (by rw [h]; decide)]

@[simp] lemma descsz_append {header rest : List UInt8} (h : header.length = noteHeaderSize) :
    descsz (header ++ rest) = descsz header := by
  have hlength : 4 ≤ (header.drop 4).length := by
    rw [List.length_drop, h]
    decide
  rw [descsz, descsz, List.drop_append_of_le_length (by rw [h]; decide), List.take_append_of_le_length hlength]

namespace Note

variable (n : Note align) (rest : List UInt8)

lemma length_bytes : n.bytes.length = ceil (noteHeaderSize + namesz n.header) align + descsz n.header := by
  rw [bytes, List.length_append, List.length_append, ← n.length_name, n.length_header, n.length_desc,
    Nat.add_assoc]

lemma namesz_bytes : namesz (n.bytes ++ rest) = namesz n.header := by
  rw [bytes, List.append_assoc, namesz_append n.length_header]

lemma descsz_bytes : descsz (n.bytes ++ rest) = descsz n.header := by
  rw [bytes, List.append_assoc, descsz_append n.length_header]

lemma descOffset_bytes : descOffset align (n.bytes ++ rest) + descsz (n.bytes ++ rest) = n.bytes.length := by
  rw [descOffset, n.namesz_bytes, n.descsz_bytes, n.length_bytes]

lemma noteEnd_bytes (halign : 0 < align) : noteEnd align (n.bytes ++ rest) = n.bytes.length + n.padding := by
  have hle : n.bytes.length ≤ ceil n.bytes.length align := le_ceil halign
  rw [noteEnd, n.descOffset_bytes, padding]
  omega

end Note

/-- A text that has room for the note it begins with begins with a note. -/
lemma exists_note (halign : 0 < align) (hfit : descOffset align t + descsz t ≤ t.length) :
    ∃ (n : Note align) (rest : List UInt8), t = n.bytes ++ rest := by
  have hheader : noteHeaderSize ≤ descOffset align t := Nat.le_trans (Nat.le_add_right _ _) (le_ceil halign)
  have hlength : (t.take noteHeaderSize).length = noteHeaderSize := by
    rw [List.length_take]
    omega
  have hsplit : t = t.take noteHeaderSize ++ t.drop noteHeaderSize := (List.take_append_drop _ _).symm
  have hnamesz : namesz (t.take noteHeaderSize) = namesz t := by
    rw [hsplit, namesz_append hlength, ← hsplit]
  have hdescsz : descsz (t.take noteHeaderSize) = descsz t := by
    rw [hsplit, descsz_append hlength, ← hsplit]
  let name := (t.drop noteHeaderSize).take (descOffset align t - noteHeaderSize)
  let desc := (t.drop (descOffset align t)).take (descsz t)
  have hname : noteHeaderSize + name.length = descOffset align t := by
    simp only [name, List.length_take, List.length_drop]
    omega
  have hdesc : desc.length = descsz t := by
    simp only [desc, List.length_take, List.length_drop]
    omega
  refine ⟨⟨t.take noteHeaderSize, name, desc, hlength, ?_, ?_⟩, t.drop (descOffset align t + descsz t), ?_⟩
  · rw [hname, hnamesz, descOffset]
  · rw [hdesc, hdescsz]
  · have hbehind : desc ++ t.drop (descOffset align t + descsz t) = t.drop (descOffset align t) := by
      rw [← List.drop_drop]
      exact List.take_append_drop _ _
    have hbody : name ++ t.drop (descOffset align t) = t.drop noteHeaderSize := by
      have hdrop : t.drop (descOffset align t) =
          (t.drop noteHeaderSize).drop (descOffset align t - noteHeaderSize) := by
        rw [List.drop_drop, Nat.add_sub_cancel' hheader]
      rw [hdrop]
      exact List.take_append_drop _ _
    rw [Note.bytes, List.append_assoc, List.append_assoc, hbehind, hbody]
    exact hsplit

/-- A sequence of notes is a note and what may follow it. -/
lemma notes_iff (halign : 0 < align) : Notes align t ↔
    descOffset align t + descsz t ≤ t.length ∧
      (t.length ≤ noteEnd align t ∨ (t.drop (noteEnd align t)).length < noteHeaderSize ∨
        Notes align (t.drop (noteEnd align t))) := by
  constructor
  · intro h
    cases h with
    | unpadded n pad hpad =>
      rw [n.descOffset_bytes, n.noteEnd_bytes _ halign, List.length_append]
      exact ⟨Nat.le_add_right _ _, .inl (by omega)⟩
    | last n pad rest hpad hrest =>
      rw [n.descOffset_bytes, n.noteEnd_bytes _ halign, ← hpad, ← List.drop_drop, List.drop_left, List.drop_left,
        List.length_append]
      exact ⟨Nat.le_add_right _ _, .inr (.inl hrest)⟩
    | more n pad rest hpad hrest =>
      rw [n.descOffset_bytes, n.noteEnd_bytes _ halign, ← hpad, ← List.drop_drop, List.drop_left, List.drop_left,
        List.length_append]
      exact ⟨Nat.le_add_right _ _, .inr (.inr hrest)⟩
  · rintro ⟨hfit, hbehind⟩
    obtain ⟨n, rest, rfl⟩ := exists_note halign hfit
    rw [n.noteEnd_bytes _ halign, List.length_append, ← List.drop_drop, List.drop_left] at hbehind
    by_cases hpad : rest.length ≤ n.padding
    · exact .unpadded n rest hpad
    · have hlength : (rest.take n.padding).length = n.padding := by
        rw [List.length_take]
        omega
      have hsplit : rest = rest.take n.padding ++ rest.drop n.padding := (List.take_append_drop _ _).symm
      rcases hbehind with hend | hshort | hnotes
      · omega
      · rw [hsplit]
        exact .last n _ _ hlength hshort
      · rw [hsplit]
        exact .more n _ _ hlength hnotes

end First

/-! ### The walk follows the format -/

section Walk

variable {c : List UInt8} {align offset fuel : Nat}

lemma noteHeaderSize_le_noteEnd (halign : 0 < align) (t : List UInt8) : noteHeaderSize ≤ noteEnd align t := by
  have hoffset : noteHeaderSize + namesz t ≤ descOffset align t := le_ceil halign
  have hend : descOffset align t + descsz t ≤ noteEnd align t := le_ceil halign
  omega

lemma namesz_lt (t : List UInt8) : namesz t < 2 ^ 32 := by
  have hlt := littleEndian_lt (t.take 4)
  have hle : (256 : Nat) ^ (t.take 4).length ≤ 256 ^ 4 := Nat.pow_le_pow_right (by decide) (List.length_take_le _ _)
  exact Nat.lt_of_lt_of_le hlt hle

lemma descsz_lt (t : List UInt8) : descsz t < 2 ^ 32 := namesz_lt (t.drop 4)

/-- One round of the loop, with a header left to read. -/
lemma notesLoop_succ (halign : 0 < align) (hle : align ≤ 8) (hc : c.length < 2 ^ 64)
    (hleft : noteHeaderSize ≤ (c.drop offset).length) :
    notesLoop c c.length align (fuel + 1) offset =
      if (c.drop offset).length < descOffset align (c.drop offset) + descsz (c.drop offset) then .ok false
      else if (c.drop offset).length ≤ noteEnd align (c.drop offset) then .ok true
      else notesLoop c c.length align fuel (offset + noteEnd align (c.drop offset)) := by
  have hnamesz := namesz_lt (c.drop offset)
  have hdescsz := descsz_lt (c.drop offset)
  have hceil : descOffset align (c.drop offset) < noteHeaderSize + namesz (c.drop offset) + align := ceil_lt halign
  rw [List.length_drop] at hleft ⊢
  simp only [noteHeaderSize] at hleft hceil
  have hsub : sub c.length offset = .ok (c.length - offset) := sub_of_le (by omega)
  have hname : field 4 c offset = .ok (namesz (c.drop offset)) := field_of_le (by omega)
  have hdesc : field 4 c (offset + 4) = .ok (descsz (c.drop offset)) := by
    rw [field_of_le (by omega), descsz, List.drop_drop]
  have hround : roundUp (noteHeaderSize + namesz (c.drop offset)) align = .ok (descOffset align (c.drop offset)) :=
    roundUp_eq halign (by simp only [noteHeaderSize]; omega)
  have hend : roundUp (descOffset align (c.drop offset) + descsz (c.drop offset)) align =
      .ok (noteEnd align (c.drop offset)) := roundUp_eq halign (by omega)
  rw [notesLoop, hsub, hname, hdesc]
  simp only [hround, bind, Except.bind, pure, Except.pure]
  rw [if_neg (by simp only [noteHeaderSize]; omega)]
  by_cases hoffset : c.length - offset < descOffset align (c.drop offset)
  · rw [if_pos hoffset, if_pos (by omega)]
  · have hroom : sub (c.length - offset) (descOffset align (c.drop offset)) =
        .ok (c.length - offset - descOffset align (c.drop offset)) := sub_of_le (Nat.not_lt.mp hoffset)
    rw [if_neg hoffset, hroom]
    by_cases hfit : c.length - offset < descOffset align (c.drop offset) + descsz (c.drop offset)
    · rw [if_pos hfit]
      exact if_pos (by omega)
    · rw [if_neg hfit, hend]
      simp only
      rw [if_neg (by omega)]
      by_cases hlast : c.length - offset ≤ noteEnd align (c.drop offset)
      · rw [if_pos hlast, if_pos hlast]
      · have hnext : add offset (noteEnd align (c.drop offset)) = .ok (offset + noteEnd align (c.drop offset)) :=
          add_of_lt (by omega)
        rw [if_neg hlast, if_neg hlast, hnext]

/-- The loop ends without a fault, and accepts exactly what is short or a sequence of notes. -/
lemma notesLoop_ok (halign : 0 < align) (hle : align ≤ 8) (hc : c.length < 2 ^ 64)
    (hfuel : (c.drop offset).length < noteHeaderSize * fuel) (hoffset : offset ≤ c.length) :
    ∃ ok, notesLoop c c.length align fuel offset = .ok ok ∧
      (ok = true ↔ (c.drop offset).length < noteHeaderSize ∨ Notes align (c.drop offset)) := by
  induction fuel generalizing offset with
  | zero => exact absurd hfuel (Nat.not_lt_zero _)
  | succ fuel ih =>
    by_cases hleft : noteHeaderSize ≤ (c.drop offset).length
    · rw [notesLoop_succ halign hle hc hleft, notes_iff halign]
      have hshort : ¬ (c.drop offset).length < noteHeaderSize := Nat.not_lt.mpr hleft
      split_ifs with hlarge hlast
      · exact ⟨false, rfl, iff_of_false (by simp) (by omega)⟩
      · exact ⟨true, rfl, iff_of_true rfl (.inr ⟨Nat.not_lt.mp hlarge, .inl hlast⟩)⟩
      · have hprogress := noteHeaderSize_le_noteEnd halign (c.drop offset)
        have hdrop : (c.drop offset).drop (noteEnd align (c.drop offset)) =
            c.drop (offset + noteEnd align (c.drop offset)) := List.drop_drop
        rw [List.length_drop] at hfuel hlast
        have hfuel' : (c.drop (offset + noteEnd align (c.drop offset))).length < noteHeaderSize * fuel := by
          rw [List.length_drop]
          rw [Nat.mul_succ] at hfuel
          omega
        obtain ⟨ok, hloop, hok⟩ := ih hfuel' (by omega)
        refine ⟨ok, hloop, hok.trans ?_⟩
        rw [hdrop]
        constructor
        · exact fun h => .inr ⟨Nat.not_lt.mp hlarge, .inr h⟩
        · rintro (h | ⟨-, h | h⟩)
          · exact absurd h hshort
          · rw [List.length_drop] at h
            exact absurd h hlast
          · exact h
    · have hstop : notesLoop c c.length align (fuel + 1) offset = .ok true := by
        rw [notesLoop, sub_of_le hoffset]
        rw [List.length_drop] at hleft
        exact if_pos (Nat.not_le.mp hleft)
      exact ⟨true, hstop, iff_of_true rfl (.inl (Nat.not_le.mp hleft))⟩

lemma noteAlign_pos (addralign : Nat) : 0 < noteAlign addralign := by
  rw [noteAlign]
  split_ifs <;> decide

lemma noteAlign_le (addralign : Nat) : noteAlign addralign ≤ 8 := by
  rw [noteAlign]
  split_ifs <;> decide

lemma noteHeaderSize_le_of_notes (halign : 0 < align) {t : List UInt8} (h : Notes align t) :
    noteHeaderSize ≤ t.length := by
  have hheader : noteHeaderSize + namesz t ≤ descOffset align t := le_ceil halign
  have hfit := ((notes_iff halign).mp h).1
  omega

/-- Whatever a section holds, the walk over its notes ends without a fault. -/
lemma cslgNotesFitSection_ok (mapped : Bool) (s : SectionContents) (addralign : Nat) :
    ∃ ok, cslgNotesFitSection mapped s addralign = .ok ok ∧
      (ok = true ↔ s.bytes = [] ∨ mapped = true ∧ Notes (noteAlign addralign) s.bytes) := by
  have halign := noteAlign_pos addralign
  simp only [cslgNotesFitSection, List.length_eq_zero_iff]
  by_cases hempty : s.bytes = []
  · rw [if_pos hempty]
    exact ⟨true, rfl, iff_of_true rfl (.inl hempty)⟩
  · rw [if_neg hempty]
    by_cases hshort : s.bytes.length < noteHeaderSize
    · rw [if_pos hshort]
      refine ⟨false, rfl, iff_of_false (by simp) ?_⟩
      rintro (h | ⟨-, h⟩)
      · exact hempty h
      · exact absurd (noteHeaderSize_le_of_notes halign h) (Nat.not_le.mpr hshort)
    · rw [if_neg hshort]
      cases mapped with
      | false => exact ⟨false, rfl, iff_of_false (by simp) (by simp [hempty])⟩
      | true =>
        have hlong : (s.bytes.drop 0).length < noteHeaderSize * s.bytes.length := by
          simp only [noteHeaderSize, List.drop_zero] at hshort ⊢
          omega
        obtain ⟨ok, hloop, hok⟩ := notesLoop_ok halign (noteAlign_le addralign) s.length_lt hlong (Nat.zero_le _)
        refine ⟨ok, hloop, hok.trans ?_⟩
        rw [List.drop_zero]
        simp [hempty, hshort]

end Walk

/-- The walk over the notes of a section ends without a fault, accepts exactly a sequence of notes, and what
it accepts with a name of four bytes in front holds the descriptor behind it. -/
theorem notes_fit_section_iff (s : SectionContents) (addralign : Nat) :
    ∃ ok, cslgNotesFitSection true s addralign = .ok ok ∧
      (ok = true ↔ s.bytes = [] ∨ Notes (noteAlign addralign) s.bytes) ∧
      (ok = true → s.bytes ≠ [] → namesz s.bytes = 4 → 16 + descsz s.bytes ≤ s.bytes.length) := by
  obtain ⟨ok, hwalk, hok⟩ := cslgNotesFitSection_ok true s addralign
  have hiff : ok = true ↔ s.bytes = [] ∨ Notes (noteAlign addralign) s.bytes := by simpa using hok
  refine ⟨ok, hwalk, hiff, fun haccepted hne hname => ?_⟩
  have hnotes := (hiff.mp haccepted).resolve_left hne
  have hfit := ((notes_iff (noteAlign_pos addralign)).mp hnotes).1
  have hoffset : noteHeaderSize + namesz s.bytes ≤ descOffset (noteAlign addralign) s.bytes :=
    le_ceil (noteAlign_pos addralign)
  rw [hname] at hoffset
  simp only [noteHeaderSize] at hoffset
  omega

/-- A note of type 3 with a name of four bytes and a descriptor of two, the padding left out. -/
example : cslgNotesFitSection true ⟨[4, 0, 0, 0, 2, 0, 0, 0, 3, 0, 0, 0, 71, 78, 85, 0, 1, 2], by decide⟩ 4 = .ok true := by
  decide

end CallStackLogger
