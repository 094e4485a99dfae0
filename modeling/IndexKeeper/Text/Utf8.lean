import IndexKeeper.Bytes

set_option autoImplicit false

namespace IndexKeeper.Utf8

def replacement : Char := Char.ofNat 0xfffd

structure Pending where
  value : Nat
  ranges : List (Nat × Nat)

structure State where
  read : List Char
  pending : Option Pending

def lead? (b : Nat) : Option Pending :=
  let any := (0x80, 0xbf)
  if 0xc2 ≤ b ∧ b ≤ 0xdf then some ⟨b - 0xc0, [any]⟩
  else if b = 0xe0 then some ⟨0, [(0xa0, 0xbf), any]⟩
  else if b = 0xed then some ⟨13, [(0x80, 0x9f), any]⟩
  else if 0xe1 ≤ b ∧ b ≤ 0xef then some ⟨b - 0xe0, [any, any]⟩
  else if b = 0xf0 then some ⟨0, [(0x90, 0xbf), any, any]⟩
  else if 0xf1 ≤ b ∧ b ≤ 0xf3 then some ⟨b - 0xf0, [any, any, any]⟩
  else if b = 0xf4 then some ⟨4, [(0x80, 0x8f), any, any]⟩
  else none

def start (read : List Char) (b : Nat) : State :=
  if b < 0x80 then ⟨Char.ofNat b :: read, none⟩
  else match lead? b with
    | some pending => ⟨read, some pending⟩
    | none => ⟨replacement :: read, none⟩

def step (s : State) (byte : UInt8) : State :=
  let b := byte.toNat
  match s.pending with
  | none => start s.read b
  | some ⟨value, (low, high) :: ranges⟩ =>
      if low ≤ b ∧ b ≤ high then
        let value := 64 * value + (b - 0x80)
        if ranges.isEmpty then ⟨Char.ofNat value :: s.read, none⟩
        else ⟨s.read, some ⟨value, ranges⟩⟩
      else start (replacement :: s.read) b
  | some ⟨_, []⟩ => start s.read b

def decodeLossy (bytes : Bytes) : String :=
  let s := bytes.foldl step ⟨[], none⟩
  let read := if s.pending.isSome then replacement :: s.read else s.read
  String.ofList read.reverse

end IndexKeeper.Utf8
