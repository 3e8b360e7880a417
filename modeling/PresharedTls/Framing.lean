import PresharedTls.Alert

/-!
# Framing

A framing cuts items off the front of a stream of bytes: records off what the transport delivers,
handshake messages off what the records carry. Whether there is an item, or a fault, is decided by
the bytes up to its end, and bytes behind them change nothing. So a stream that arrives in pieces is
cut into the same items as the whole of it, which is what `cut_append` says.
-/

namespace PresharedTls

structure Framing (α : Type) where
  /-- The first item and the bytes behind it, or none while more bytes are needed. -/
  next : (buffer : Bytes) → Except AlertDescription (Option (α × Bytes))
  length_lt : ∀ {buffer rest : Bytes} {item : α}, next buffer = .ok (some (item, rest)) →
    rest.length < buffer.length
  next_append_of_item : ∀ {buffer rest : Bytes} {item : α} (more : Bytes),
    next buffer = .ok (some (item, rest)) → next (buffer ++ more) = .ok (some (item, rest ++ more))
  next_append_of_fault : ∀ {buffer : Bytes} {fault : AlertDescription} (more : Bytes),
    next buffer = .error fault → next (buffer ++ more) = .error fault

structure Cut (α : Type) where
  items : List α
  rest : Bytes
  /-- What is wrong with the bytes behind the items, if no more of them can be cut for that reason. -/
  fault : Option AlertDescription

namespace Framing

variable {α : Type}

/-- All items at the front of a stream of bytes. -/
def cut (framing : Framing α) (buffer : Bytes) : Cut α :=
  match _ : framing.next buffer with
  | .error fault => ⟨[], buffer, some fault⟩
  | .ok none => ⟨[], buffer, none⟩
  | .ok (some (item, rest)) =>
    let behind := framing.cut rest
    ⟨item :: behind.items, behind.rest, behind.fault⟩
termination_by buffer.length
decreasing_by exact framing.length_lt (by assumption)

theorem cut_of_fault {framing : Framing α} {buffer : Bytes} {fault : AlertDescription}
    (h : framing.next buffer = .error fault) : framing.cut buffer = ⟨[], buffer, some fault⟩ := by
  rw [cut]
  split <;> simp_all

theorem cut_of_none {framing : Framing α} {buffer : Bytes} (h : framing.next buffer = .ok none) :
    framing.cut buffer = ⟨[], buffer, none⟩ := by
  rw [cut]
  split <;> simp_all

theorem cut_of_item {framing : Framing α} {buffer rest : Bytes} {item : α}
    (h : framing.next buffer = .ok (some (item, rest))) :
    framing.cut buffer =
      ⟨item :: (framing.cut rest).items, (framing.cut rest).rest, (framing.cut rest).fault⟩ := by
  rw [cut]
  split <;> simp_all

/-- What is left over after a cut without a fault is not an item yet. -/
theorem next_rest_of_cut (framing : Framing α) (buffer : Bytes) (h : (framing.cut buffer).fault = none) :
    framing.next (framing.cut buffer).rest = .ok none := by
  fun_induction cut framing buffer with
  | case1 => simp at h
  | case2 buffer none? => simpa using none?
  | case3 buffer item rest some? behind ih => exact ih h

/-- More bytes behind a stream are cut together with what was left over, unless there was a fault. -/
theorem cut_append (framing : Framing α) (buffer more : Bytes) :
    framing.cut (buffer ++ more) =
      match (framing.cut buffer).fault with
      | some fault => ⟨(framing.cut buffer).items, (framing.cut buffer).rest ++ more, some fault⟩
      | none =>
        ⟨(framing.cut buffer).items ++ (framing.cut ((framing.cut buffer).rest ++ more)).items,
          (framing.cut ((framing.cut buffer).rest ++ more)).rest,
          (framing.cut ((framing.cut buffer).rest ++ more)).fault⟩ := by
  fun_induction cut framing buffer with
  | case1 buffer fault faulty => exact cut_of_fault (framing.next_append_of_fault more faulty)
  | case2 buffer none? => rfl
  | case3 buffer item rest some? behind ih =>
    rw [cut_of_item (framing.next_append_of_item more some?), ih]
    cases behind.fault <;> rfl

end Framing

end PresharedTls
