import Mathlib.Data.List.Basic

/-! # Keys

SDL's scancodes and the keycodes the guest gets for them. The scancodes are positions on a
keyboard; the table has the Linux keycode of each up to the right meta key. -/
namespace Sober.App

abbrev Scancode := ℕ

namespace Scancode

def a : Scancode := 4
def h : Scancode := 11
def z : Scancode := 29
def one : Scancode := 30
def nine : Scancode := 38
def zero : Scancode := 39
def enter : Scancode := 40
def escape : Scancode := 41
def backspace : Scancode := 42
def tab : Scancode := 43
def space : Scancode := 44
def capslock : Scancode := 57
def f1 : Scancode := 58
def f11 : Scancode := 68
def f12 : Scancode := 69
def right : Scancode := 79
def left : Scancode := 80
def down : Scancode := 81
def up : Scancode := 82
def lctrl : Scancode := 224
def lshift : Scancode := 225
def lalt : Scancode := 226
def rctrl : Scancode := 228
def rshift : Scancode := 229
def ralt : Scancode := 230

end Scancode

def keyUnknown : ℕ := 240

def linuxKeycodes : List ℕ :=
  List.replicate 4 keyUnknown ++
  [30, 48, 46, 32, 18, 33, 34, 35, 23, 36, 37, 38, 50, 49, 24, 25, 16, 19, 31, 20, 22, 47, 17,
    45, 21, 44,
    2, 3, 4, 5, 6, 7, 8, 9, 10, 11, 28, 1, 14, 15, 57, 12, 13, 26, 27, 43, 43, 39, 40, 41, 51,
    52, 53, 58,
    59, 60, 61, 62, 63, 64, 65, 66, 67, 68, 87, 88, 210, 70, 119, 110, 102, 104, 111, 107, 109,
    106, 105, 108, 103,
    69, 98, 55, 74, 78, 96, 79, 80, 81, 75, 76, 77, 71, 72, 73, 82, 83,
    86, 127, 116, 117, 183, 184, 185, 186, 187, 188, 189, 190, 191, 192, 193, 194, keyUnknown,
    138, 139, 353, 128, 129, 131, 137, 133, 135, 136, 113, 115, 114, keyUnknown, keyUnknown,
    keyUnknown, 121, keyUnknown, 89, 93, 124, 92, 95, keyUnknown, keyUnknown, keyUnknown,
    keyUnknown, 122, 123, 90, 91, 85, keyUnknown, keyUnknown, keyUnknown, keyUnknown, 222, 99,
    223, 355] ++
  List.replicate 25 keyUnknown ++ [179, 180] ++ List.replicate 31 keyUnknown ++ [118] ++
  List.replicate 8 keyUnknown ++
  [29, 42, 56, 125, 97, 54, 100, 126]

def androidKeycode (scancode : Scancode) : ℕ :=
  if .a ≤ scancode ∧ scancode ≤ .z then scancode + 25
  else if .one ≤ scancode ∧ scancode ≤ .nine then scancode - 22
  else if scancode = .zero then 7
  else if scancode = .capslock then 115
  else if .f1 ≤ scancode ∧ scancode ≤ .f12 then scancode + 73
  else if scancode = .lctrl then 113
  else if scancode = .rctrl then 114
  else if scancode = .lshift then 59
  else if scancode = .rshift then 60
  else if scancode = .lalt then 57
  else if scancode = .ralt then 58
  else if scancode = .tab then 61
  else if scancode = .space then 62
  else if scancode = .backspace then 67
  else if scancode = .enter then 66
  else if scancode = .escape then 111
  else if scancode = .up then 19
  else if scancode = .down then 20
  else if scancode = .left then 21
  else if scancode = .right then 22
  else 0

end Sober.App
