/-
  NoteTape.Proofs.Device.Store

  Devices held in memory, by what is still unread and what was written. A device is
  `Ahead` of another if it has some bytes to read behind those of the other and has
  written some bytes in front of them; reads and writes keep it so, as long as the
  other has something to read.
-/

import NoteTape.Device.Store
import NoteTape.Proofs.Machine.Alike

namespace NoteTape

/-- Bytes to read, and a recorder to which nothing was written. -/
def supplied (bytes : List UInt8) : Wired Slice Recorder := ⟨.ofList bytes, {}⟩

namespace Slice

variable {s : Slice}

@[simp] theorem toList_ofList (bytes : List UInt8) : (ofList bytes).toList = bytes := rfl

theorem getElem?_position (s : Slice) : s.bytes[s.position]? = s.toList.head? := by
  rw [toList, List.head?_drop, Array.getElem?_toList]

theorem next_of_nil (nothing : s.toList = []) : s.next = (none, s) := by
  have none : s.bytes[s.position]? = none := by rw [getElem?_position, nothing, List.head?_nil]
  rw [next, none]

theorem next_of_ne_nil (left : s.toList ≠ []) :
    ∃ byte s', s.next = (some byte, s') ∧ s.toList = byte :: s'.toList := by
  obtain ⟨byte, rest, more⟩ := List.exists_cons_of_ne_nil left
  have here : s.bytes[s.position]? = some byte := by rw [getElem?_position, more, List.head?_cons]
  refine ⟨byte, { s with position := s.position + 1 }, by rw [next, here], ?_⟩
  have behind : (Slice.mk s.bytes (s.position + 1)).toList = rest := by
    rw [toList] at more ⊢
    rw [← List.tail_drop, more, List.tail_cons]
  rw [behind, more]

end Slice

/-- The first device has `more` to read behind what the second has, and has written
    `before` in front of what the second has. -/
structure Ahead (more before : List UInt8) (w w' : Wired Slice Recorder) : Prop where
  unread : w.source.toList = w'.source.toList ++ more
  written : w.sink.written.toList = before ++ w'.sink.written.toList

namespace Device

variable {w : Wired Slice Recorder}

theorem read_eq (w : Wired Slice Recorder) :
    Device.read w = (.ok w.source.next.1, { w with source := w.source.next.2 }) := rfl

theorem read_of_nil (nothing : w.source.toList = []) : Device.read w = (.ok none, w) := by
  rw [read_eq, Slice.next_of_nil nothing]

theorem read_of_ne_nil (left : w.source.toList ≠ []) :
    ∃ byte s, Device.read w = (.ok (some byte), { w with source := s }) ∧
      w.source.toList = byte :: s.toList := by
  obtain ⟨byte, s, next, front⟩ := Slice.next_of_ne_nil left
  exact ⟨byte, s, by rw [read_eq, next], front⟩

end Device

namespace Ahead

variable {more before : List UInt8} {w w' : Wired Slice Recorder}

theorem write (h : Ahead more before w w') (byte : UInt8) :
    (Device.write byte w).1 = (Device.write byte w').1 ∧
      Ahead more before (Device.write byte w).2 (Device.write byte w').2 := by
  refine ⟨rfl, h.unread, ?_⟩
  show (w.sink.written ++ [byte]).toList = before ++ (w'.sink.written ++ [byte]).toList
  rw [Array.toList_appendList, Array.toList_appendList, h.written, List.append_assoc]

theorem read (h : Ahead more before w w') (left : w'.source.toList ≠ []) :
    (Device.read w).1 = (Device.read w').1 ∧
      Ahead more before (Device.read w).2 (Device.read w').2 := by
  have left' : w.source.toList ≠ [] := by
    rw [h.unread]
    exact List.append_ne_nil_of_left_ne_nil left more
  obtain ⟨byte', s', reads', front'⟩ := Device.read_of_ne_nil left
  obtain ⟨byte, s, reads, front⟩ := Device.read_of_ne_nil left'
  have whole : byte :: s.toList = byte' :: (s'.toList ++ more) := by
    rw [← front, h.unread, front', List.cons_append]
  obtain ⟨rfl, rest⟩ := List.cons.inj whole
  rw [reads, reads']
  exact ⟨rfl, rest, h.written⟩

/-- With nothing more to read a device gives the answers of the other to the end. -/
theorem alike (before : List UInt8) : Device.Alike (Ahead [] before) where
  read := by
    intro w w' h
    by_cases left : w'.source.toList = []
    · have left' : w.source.toList = [] := by rw [h.unread, left, List.append_nil]
      rw [Device.read_of_nil left, Device.read_of_nil left']
      exact ⟨rfl, h⟩
    · exact h.read left
  write byte _ _ h := h.write byte

/-- A device is as far ahead of one that has nothing left to read as of a new one that
    is given the rest. -/
theorem caughtUp (h : Ahead more [] w w') (nothing : w'.source.toList = []) :
    Ahead [] w'.sink.written.toList w (supplied more) where
  unread := by
    rw [h.unread, nothing, List.nil_append, List.append_nil, supplied, Slice.toList_ofList]
  written := by
    rw [h.written, List.nil_append]
    exact (List.append_nil _).symm

end Ahead

end NoteTape
