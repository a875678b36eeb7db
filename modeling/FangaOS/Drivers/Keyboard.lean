import Mathlib.Data.List.Basic
import Mathlib.Tactic.SplitIfs
import Mathlib.Data.Nat.Bits

/-! The PS/2 keyboard driver of `fanga-arch-x86_64/src/keyboard.rs`, on scancode
set 1.  A press of either key of a modifier sets its flag and a release of either
clears it, so a flag holds the kind of the last event of either key, not whether
one of them is still down. -/

namespace FangaOS.Ps2

inductive KeyCode
  | char (c : Char)
  | backspace
  | delete
  | enter
  | tab
  | escape
  | leftShift
  | rightShift
  | leftCtrl
  | rightCtrl
  | leftAlt
  | rightAlt
  | capsLock
  | f1 | f2 | f3 | f4 | f5 | f6 | f7 | f8 | f9 | f10 | f11 | f12
  | up | down | left | right
  | home | «end»
  | unknown
  deriving DecidableEq, Repr

inductive KeyEvent
  | press (keyCode : KeyCode)
  | release (keyCode : KeyCode)
  deriving DecidableEq, Repr

def KeyEvent.keyCode : KeyEvent → KeyCode
  | .press keyCode => keyCode
  | .release keyCode => keyCode

def KeyEvent.isPress : KeyEvent → Bool
  | .press _ => true
  | .release _ => false

structure Keyboard where
  shiftPressed : Bool
  ctrlPressed : Bool
  altPressed : Bool
  capsLock : Bool
  extendedScancode : Bool
  deriving DecidableEq, Repr

def Keyboard.new : Keyboard := ⟨false, false, false, false, false⟩

/-- The table for a key code after an `0xE0` prefix. -/
def extendedKeyCode (keyCode : UInt8) : KeyCode :=
  match keyCode with
  | 0x48 => .up
  | 0x50 => .down
  | 0x4B => .left
  | 0x4D => .right
  | 0x47 => .home
  | 0x4F => .end
  | 0x53 => .delete
  | 0x1D => .rightCtrl
  | _ => .unknown

/-- The table for a key code without prefix (US layout). -/
def normalKeyCode (keyCode : UInt8) : KeyCode :=
  match keyCode with
  | 0x01 => .escape
  | 0x02 => .char '1'
  | 0x03 => .char '2'
  | 0x04 => .char '3'
  | 0x05 => .char '4'
  | 0x06 => .char '5'
  | 0x07 => .char '6'
  | 0x08 => .char '7'
  | 0x09 => .char '8'
  | 0x0A => .char '9'
  | 0x0B => .char '0'
  | 0x0C => .char '-'
  | 0x0D => .char '='
  | 0x0E => .backspace
  | 0x0F => .tab
  | 0x10 => .char 'q'
  | 0x11 => .char 'w'
  | 0x12 => .char 'e'
  | 0x13 => .char 'r'
  | 0x14 => .char 't'
  | 0x15 => .char 'y'
  | 0x16 => .char 'u'
  | 0x17 => .char 'i'
  | 0x18 => .char 'o'
  | 0x19 => .char 'p'
  | 0x1A => .char '['
  | 0x1B => .char ']'
  | 0x1C => .enter
  | 0x1D => .leftCtrl
  | 0x1E => .char 'a'
  | 0x1F => .char 's'
  | 0x20 => .char 'd'
  | 0x21 => .char 'f'
  | 0x22 => .char 'g'
  | 0x23 => .char 'h'
  | 0x24 => .char 'j'
  | 0x25 => .char 'k'
  | 0x26 => .char 'l'
  | 0x27 => .char ';'
  -- the apostrophe and the grave accent, by code point
  | 0x28 => .char (Char.ofNat 0x27)
  | 0x29 => .char (Char.ofNat 0x60)
  | 0x2A => .leftShift
  | 0x2B => .char '\\'
  | 0x2C => .char 'z'
  | 0x2D => .char 'x'
  | 0x2E => .char 'c'
  | 0x2F => .char 'v'
  | 0x30 => .char 'b'
  | 0x31 => .char 'n'
  | 0x32 => .char 'm'
  | 0x33 => .char ','
  | 0x34 => .char '.'
  | 0x35 => .char '/'
  | 0x36 => .rightShift
  | 0x38 => .leftAlt
  | 0x39 => .char ' '
  | 0x3A => .capsLock
  | 0x3B => .f1
  | 0x3C => .f2
  | 0x3D => .f3
  | 0x3E => .f4
  | 0x3F => .f5
  | 0x40 => .f6
  | 0x41 => .f7
  | 0x42 => .f8
  | 0x43 => .f9
  | 0x44 => .f10
  | 0x57 => .f11
  | 0x58 => .f12
  | _ => .unknown

/-- The modifier update of `process_scancode` for a decoded key. -/
def Keyboard.updateModifiers (kb : Keyboard) (isRelease : Bool) (keycode : KeyCode) : Keyboard :=
  if !isRelease then
    match keycode with
    | .leftShift | .rightShift => { kb with shiftPressed := true }
    | .leftCtrl | .rightCtrl => { kb with ctrlPressed := true }
    | .leftAlt | .rightAlt => { kb with altPressed := true }
    | .capsLock => { kb with capsLock := !kb.capsLock }
    | _ => kb
  else
    match keycode with
    | .leftShift | .rightShift => { kb with shiftPressed := false }
    | .leftCtrl | .rightCtrl => { kb with ctrlPressed := false }
    | .leftAlt | .rightAlt => { kb with altPressed := false }
    | _ => kb

def Keyboard.processScancode (kb : Keyboard) (scancode : UInt8) : Option KeyEvent × Keyboard :=
  if scancode = 0xE0 then (none, { kb with extendedScancode := true })
  else
    let isRelease := (scancode &&& 0x80) != 0
    let keyCode := scancode &&& 0x7F
    let (keycode, kb) :=
      if kb.extendedScancode then (extendedKeyCode keyCode, { kb with extendedScancode := false })
      else (normalKeyCode keyCode, kb)
    let kb := kb.updateModifiers isRelease keycode
    if isRelease then (some (.release keycode), kb) else (some (.press keycode), kb)

def Keyboard.isShiftPressed (kb : Keyboard) : Bool := kb.shiftPressed

def Keyboard.isCtrlPressed (kb : Keyboard) : Bool := kb.ctrlPressed

def Keyboard.isAltPressed (kb : Keyboard) : Bool := kb.altPressed

def Keyboard.isCapsLock (kb : Keyboard) : Bool := kb.capsLock

/-- `keyboard_irq_handler` on each scancode of a stream in turn: the events it
dispatches, in order, and the keyboard after. -/
def Keyboard.handleScancodes (kb : Keyboard) : List UInt8 → List KeyEvent × Keyboard
  | [] => ([], kb)
  | scancode :: rest =>
      let (event, kb) := kb.processScancode scancode
      let (events, kb) := kb.handleScancodes rest
      (event.toList ++ events, kb)

theorem Keyboard.handleScancodes_cons (kb : Keyboard) (scancode : UInt8) (rest : List UInt8) :
    kb.handleScancodes (scancode :: rest) =
      ((kb.processScancode scancode).1.toList ++
          ((kb.processScancode scancode).2.handleScancodes rest).1,
        ((kb.processScancode scancode).2.handleScancodes rest).2) :=
  rfl

/-! ### One scancode -/

theorem Keyboard.processScancode_of_ne (kb : Keyboard) {scancode : UInt8}
    (notPrefix : scancode ≠ 0xE0) :
    let keycode := if kb.extendedScancode then extendedKeyCode (scancode &&& 0x7F)
      else normalKeyCode (scancode &&& 0x7F)
    let isRelease := (scancode &&& 0x80) != 0
    kb.processScancode scancode =
      (some (if isRelease then .release keycode else .press keycode),
        { kb with extendedScancode := false }.updateModifiers isRelease keycode) := by
  unfold processScancode
  rw [if_neg notPrefix]
  obtain ⟨shift, ctrl, alt, caps, extended⟩ := kb
  -- the branch on the prefix flag and the branch on the release bit are independent
  by_cases release : (scancode &&& 0x80) != 0 <;> cases extended <;> simp [release]

/-! ### What the modifier flags track

A modifier's flag follows the events of both of its keys as one stream: it is
set by the last press and cleared by the last release of either key. -/

/-- The modifiers that `Keyboard` keeps a flag for. -/
inductive Modifier
  | shift
  | ctrl
  | alt
  deriving DecidableEq, Repr

/-- The keys whose events set and clear the flag of a modifier. -/
def Modifier.keys : Modifier → List KeyCode
  | .shift => [.leftShift, .rightShift]
  | .ctrl => [.leftCtrl, .rightCtrl]
  | .alt => [.leftAlt, .rightAlt]

/-- The flag of a modifier, as `is_shift_pressed`, `is_ctrl_pressed` and
`is_alt_pressed` report it. -/
def Keyboard.modifier (kb : Keyboard) : Modifier → Bool
  | .shift => kb.isShiftPressed
  | .ctrl => kb.isCtrlPressed
  | .alt => kb.isAltPressed

/-- Whether the last of `events` on one of `keys` is a press, and `initial` if
none is on them. -/
def lastPressOn (keys : List KeyCode) (initial : Bool) (events : List KeyEvent) : Bool :=
  ((events.filter fun event => event.keyCode ∈ keys).getLast?.map KeyEvent.isPress).getD initial

theorem lastPressOn_append (keys : List KeyCode) (initial : Bool) (events more : List KeyEvent) :
    lastPressOn keys initial (events ++ more) =
      lastPressOn keys (lastPressOn keys initial events) more := by
  unfold lastPressOn
  rw [List.filter_append, List.getLast?_append]
  cases (more.filter fun event => event.keyCode ∈ keys).getLast? <;> rfl

theorem lastPressOn_singleton (keys : List KeyCode) (initial : Bool) (event : KeyEvent) :
    lastPressOn keys initial [event] = if event.keyCode ∈ keys then event.isPress else initial := by
  unfold lastPressOn
  by_cases onKeys : event.keyCode ∈ keys
  · rw [List.filter_singleton, decide_eq_true onKeys, if_pos onKeys]
    rfl
  · rw [List.filter_singleton, decide_eq_false onKeys, if_neg onKeys]
    rfl

theorem Keyboard.modifier_updateModifiers (kb : Keyboard) (isRelease : Bool) (keycode : KeyCode)
    (modifier : Modifier) : (kb.updateModifiers isRelease keycode).modifier modifier =
      if keycode ∈ modifier.keys then !isRelease else kb.modifier modifier := by
  unfold updateModifiers
  cases modifier <;> cases isRelease <;> cases keycode <;> rfl

theorem Keyboard.modifier_clearExtended (kb : Keyboard) (extended : Bool) (modifier : Modifier) :
    { kb with extendedScancode := extended }.modifier modifier = kb.modifier modifier := by
  cases modifier <;> rfl

theorem Keyboard.modifier_processScancode (kb : Keyboard) (scancode : UInt8) (modifier : Modifier) :
    (kb.processScancode scancode).2.modifier modifier =
      lastPressOn modifier.keys (kb.modifier modifier) (kb.processScancode scancode).1.toList := by
  by_cases isPrefix : scancode = 0xE0
  · rw [processScancode, if_pos isPrefix]
    exact kb.modifier_clearExtended true modifier
  · rw [kb.processScancode_of_ne isPrefix]
    simp only [Option.toList_some, lastPressOn_singleton, modifier_updateModifiers,
      modifier_clearExtended]
    split_ifs <;> simp_all [KeyEvent.keyCode, KeyEvent.isPress]

theorem Keyboard.modifier_handleScancodes (kb : Keyboard) (scancodes : List UInt8)
    (modifier : Modifier) : (kb.handleScancodes scancodes).2.modifier modifier =
      lastPressOn modifier.keys (kb.modifier modifier) (kb.handleScancodes scancodes).1 := by
  -- induction on the stream; the step lemma carries the flag over one byte
  induction scancodes generalizing kb with
  | nil => rfl
  | cons scancode rest ih =>
      rw [handleScancodes_cons, lastPressOn_append, ← modifier_processScancode]
      exact ih _

/-! ### Keys that no byte decodes to -/

theorem extendedKeyCode_ne_rightAlt (keyCode : UInt8) : extendedKeyCode keyCode ≠ .rightAlt := by
  unfold extendedKeyCode
  split <;> simp

theorem normalKeyCode_ne_rightAlt (keyCode : UInt8) : normalKeyCode keyCode ≠ .rightAlt := by
  unfold normalKeyCode
  split <;> simp

theorem Keyboard.rightAlt_not_mem_handleScancodes (kb : Keyboard) (scancodes : List UInt8) :
    ∀ event ∈ (kb.handleScancodes scancodes).1, event.keyCode ≠ .rightAlt := by
  induction scancodes generalizing kb with
  | nil => simp [handleScancodes]
  | cons scancode rest ih =>
      intro event member
      rw [handleScancodes_cons, List.mem_append] at member
      rcases member with first | later
      · by_cases isPrefix : scancode = 0xE0
        · simp [processScancode, isPrefix] at first
        · rw [kb.processScancode_of_ne isPrefix] at first
          obtain rfl := List.mem_singleton.mp first
          split_ifs <;>
            simp [KeyEvent.keyCode, extendedKeyCode_ne_rightAlt, normalKeyCode_ne_rightAlt]
      · exact ih _ event later

/-! ### Caps Lock -/

theorem Keyboard.capsLock_updateModifiers (kb : Keyboard) (isRelease : Bool) (keycode : KeyCode) :
    (kb.updateModifiers isRelease keycode).isCapsLock =
      (kb.isCapsLock ^^ (!isRelease && decide (keycode = .capsLock))) := by
  unfold updateModifiers
  cases isRelease <;> cases keycode <;> simp [isCapsLock]

theorem Keyboard.capsLock_processScancode (kb : Keyboard) (scancode : UInt8) :
    (kb.processScancode scancode).2.isCapsLock =
      (kb.isCapsLock ^^ ((kb.processScancode scancode).1.toList.count (.press .capsLock)).bodd) := by
  by_cases isPrefix : scancode = 0xE0
  · rw [processScancode, if_pos isPrefix]
    simp [isCapsLock]
  · rw [kb.processScancode_of_ne isPrefix]
    generalize (scancode &&& 0x80 != 0) = isRelease
    generalize (if kb.extendedScancode then extendedKeyCode (scancode &&& 0x7F)
      else normalKeyCode (scancode &&& 0x7F)) = keycode
    rw [Option.toList_some, capsLock_updateModifiers]
    by_cases isCaps : keycode = .capsLock <;> cases isRelease <;> simp [isCaps, isCapsLock]

theorem Keyboard.capsLock_handleScancodes (kb : Keyboard) (scancodes : List UInt8) :
    (kb.handleScancodes scancodes).2.isCapsLock =
      (kb.isCapsLock ^^ ((kb.handleScancodes scancodes).1.count (.press .capsLock)).bodd) := by
  induction scancodes generalizing kb with
  | nil => simp [handleScancodes]
  | cons scancode rest ih =>
      rw [handleScancodes_cons, ih, capsLock_processScancode, List.count_append, Nat.bodd_add,
        Bool.xor_assoc]

/-- After any stream of scancodes, each modifier flag is whether the last event
on either key of the modifier is a press (the flag it had when no event is on
them), caps lock has toggled once per caps lock press, and no byte sequence
decodes to Right Alt, so only Left Alt moves the Alt flag. -/
theorem keyboard_flags_follow_last_events (kb : Keyboard) (scancodes : List UInt8) :
    let result := kb.handleScancodes scancodes
    (∀ modifier : Modifier,
        result.2.modifier modifier = lastPressOn modifier.keys (kb.modifier modifier) result.1) ∧
      result.2.isCapsLock = (kb.isCapsLock ^^ (result.1.count (.press .capsLock)).bodd) ∧
      ∀ event ∈ result.1, event.keyCode ≠ .rightAlt :=
  ⟨kb.modifier_handleScancodes scancodes, kb.capsLock_handleScancodes scancodes,
    kb.rightAlt_not_mem_handleScancodes scancodes⟩

/-- Right Shift still down after Left Shift is let go, Right Ctrl still down
after Left Ctrl is let go, and Right Alt pressed: the flags read not pressed in
all three, since one release clears the flag of both keys and `E0 38` decodes to
no key. -/
theorem keyboard_modifier_flags_miss_held_keys :
    let shift : List KeyEvent × Keyboard := Keyboard.new.handleScancodes [0x2A, 0x36, 0xAA]
    let ctrl : List KeyEvent × Keyboard := Keyboard.new.handleScancodes [0x1D, 0xE0, 0x1D, 0x9D]
    let alt : List KeyEvent × Keyboard := Keyboard.new.handleScancodes [0xE0, 0x38]
    shift.1 = [.press .leftShift, .press .rightShift, .release .leftShift] ∧
      lastPressOn [.rightShift] false shift.1 = true ∧ shift.2.isShiftPressed = false ∧
      ctrl.1 = [.press .leftCtrl, .press .rightCtrl, .release .leftCtrl] ∧
      lastPressOn [.rightCtrl] false ctrl.1 = true ∧ ctrl.2.isCtrlPressed = false ∧
      alt.1 = [.press .unknown] ∧ alt.2.isAltPressed = false := by
  decide

end FangaOS.Ps2
