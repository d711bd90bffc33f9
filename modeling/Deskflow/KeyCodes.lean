import Deskflow.ProtocolTypes

/-! The map from protocol key ids and buttons to HarmonyOS codes. The code
values are those the source records beside each case. -/

namespace Deskflow

def KEYCODE_HOME : Int := 1
def KEYCODE_MEDIA_PLAY_PAUSE : Int := 10
def KEYCODE_MEDIA_STOP : Int := 11
def KEYCODE_MEDIA_NEXT : Int := 12
def KEYCODE_MEDIA_PREVIOUS : Int := 13
def KEYCODE_VOLUME_UP : Int := 16
def KEYCODE_VOLUME_DOWN : Int := 17
def KEYCODE_VOLUME_MUTE : Int := 22
def KEYCODE_BRIGHTNESS_UP : Int := 40
def KEYCODE_BRIGHTNESS_DOWN : Int := 41
def KEYCODE_0 : Int := 2000
def KEYCODE_STAR : Int := 2010
def KEYCODE_POUND : Int := 2011
def KEYCODE_DPAD_UP : Int := 2012
def KEYCODE_DPAD_DOWN : Int := 2013
def KEYCODE_DPAD_LEFT : Int := 2014
def KEYCODE_DPAD_RIGHT : Int := 2015
def KEYCODE_A : Int := 2017
def KEYCODE_COMMA : Int := 2043
def KEYCODE_PERIOD : Int := 2044
def KEYCODE_ALT_LEFT : Int := 2045
def KEYCODE_ALT_RIGHT : Int := 2046
def KEYCODE_SHIFT_LEFT : Int := 2047
def KEYCODE_SHIFT_RIGHT : Int := 2048
def KEYCODE_TAB : Int := 2049
def KEYCODE_SPACE : Int := 2050
def KEYCODE_ENVELOPE : Int := 2053
def KEYCODE_ENTER : Int := 2054
def KEYCODE_DEL : Int := 2055
def KEYCODE_GRAVE : Int := 2056
def KEYCODE_MINUS : Int := 2057
def KEYCODE_EQUALS : Int := 2058
def KEYCODE_LEFT_BRACKET : Int := 2059
def KEYCODE_RIGHT_BRACKET : Int := 2060
def KEYCODE_BACKSLASH : Int := 2061
def KEYCODE_SEMICOLON : Int := 2062
def KEYCODE_APOSTROPHE : Int := 2063
def KEYCODE_SLASH : Int := 2064
def KEYCODE_AT : Int := 2065
def KEYCODE_PLUS : Int := 2066
def KEYCODE_MENU : Int := 2067
def KEYCODE_PAGE_UP : Int := 2068
def KEYCODE_PAGE_DOWN : Int := 2069
def KEYCODE_ESCAPE : Int := 2070
def KEYCODE_FORWARD_DEL : Int := 2071
def KEYCODE_CTRL_LEFT : Int := 2072
def KEYCODE_CTRL_RIGHT : Int := 2073
def KEYCODE_CAPS_LOCK : Int := 2074
def KEYCODE_SCROLL_LOCK : Int := 2075
def KEYCODE_META_LEFT : Int := 2076
def KEYCODE_META_RIGHT : Int := 2077
def KEYCODE_SYSRQ : Int := 2079
def KEYCODE_BREAK : Int := 2080
def KEYCODE_MOVE_HOME : Int := 2081
def KEYCODE_MOVE_END : Int := 2082
def KEYCODE_INSERT : Int := 2083
def KEYCODE_FORWARD : Int := 2084
def KEYCODE_MEDIA_EJECT : Int := 2088
def KEYCODE_F1 : Int := 2090
def KEYCODE_NUM_LOCK : Int := 2102
def KEYCODE_NUMPAD_0 : Int := 2103
def KEYCODE_NUMPAD_DIVIDE : Int := 2113
def KEYCODE_NUMPAD_MULTIPLY : Int := 2114
def KEYCODE_NUMPAD_SUBTRACT : Int := 2115
def KEYCODE_NUMPAD_ADD : Int := 2116
def KEYCODE_NUMPAD_DOT : Int := 2117
def KEYCODE_NUMPAD_COMMA : Int := 2118
def KEYCODE_NUMPAD_ENTER : Int := 2119
def KEYCODE_NUMPAD_EQUALS : Int := 2120
def KEYCODE_SLEEP : Int := 2600
def KEYCODE_ZENKAKU_HANKAKU : Int := 2601
def KEYCODE_KATAKANA : Int := 2604
def KEYCODE_HENKAN : Int := 2606
def KEYCODE_KATAKANA_HIRAGANA : Int := 2607
def KEYCODE_LINEFEED : Int := 2609
def KEYCODE_HANGUEL : Int := 2613
def KEYCODE_HANJA : Int := 2614
def KEYCODE_UNDO : Int := 2619
def KEYCODE_FIND : Int := 2623
def KEYCODE_HELP : Int := 2625
def KEYCODE_REFRESH : Int := 2635
def KEYCODE_REDO : Int := 2641
def KEYCODE_PRINT : Int := 2645
def KEYCODE_CANCEL : Int := 2648
def KEYCODE_FORWARDMAIL : Int := 2654

def symbolKeys : List (UInt32 × Int) :=
  [(0x0020, KEYCODE_SPACE), (0x002c, KEYCODE_COMMA), (0x002e, KEYCODE_PERIOD),
    (0x002d, KEYCODE_MINUS), (0x003d, KEYCODE_EQUALS), (0x005b, KEYCODE_LEFT_BRACKET),
    (0x005d, KEYCODE_RIGHT_BRACKET), (0x005c, KEYCODE_BACKSLASH), (0x003b, KEYCODE_SEMICOLON),
    (0x0027, KEYCODE_APOSTROPHE), (0x002f, KEYCODE_SLASH), (0x0060, KEYCODE_GRAVE),
    (0x0040, KEYCODE_AT), (0x002b, KEYCODE_PLUS), (0x002a, KEYCODE_STAR),
    (0x0023, KEYCODE_POUND)]

def cursorKeys : List (UInt32 × Int) :=
  [(kKeyBackSpace, KEYCODE_DEL), (kKeyTab, KEYCODE_TAB), (kKeyReturn, KEYCODE_ENTER),
    (kKeyEscape, KEYCODE_ESCAPE), (kKeyHome, KEYCODE_MOVE_HOME), (kKeyEnd, KEYCODE_MOVE_END),
    (kKeyLeft, KEYCODE_DPAD_LEFT), (kKeyUp, KEYCODE_DPAD_UP), (kKeyRight, KEYCODE_DPAD_RIGHT),
    (kKeyDown, KEYCODE_DPAD_DOWN), (kKeyPageUp, KEYCODE_PAGE_UP),
    (kKeyPageDown, KEYCODE_PAGE_DOWN), (kKeyInsert, KEYCODE_INSERT),
    (kKeyDelete, KEYCODE_FORWARD_DEL), (kKeyClear, KEYCODE_MOVE_HOME),
    (kKeyLinefeed, KEYCODE_LINEFEED), (kKeyLeftTab, KEYCODE_TAB), (kKeySelect, KEYCODE_FORWARD),
    (kKeyExecute, KEYCODE_MENU), (kKeyMenu, KEYCODE_MENU), (kKeyFind, KEYCODE_FIND),
    (kKeyCancel, KEYCODE_CANCEL), (kKeyHelp, KEYCODE_HELP), (kKeyUndo, KEYCODE_UNDO),
    (kKeyRedo, KEYCODE_REDO)]

/-- AltGr is sent as right Alt, and Super as Meta. -/
def lockAndModifierKeys : List (UInt32 × Int) :=
  [(kKeyCapsLock, KEYCODE_CAPS_LOCK), (kKeyNumLock, KEYCODE_NUM_LOCK),
    (kKeyScrollLock, KEYCODE_SCROLL_LOCK), (kKeyShiftL, KEYCODE_SHIFT_LEFT),
    (kKeyShiftR, KEYCODE_SHIFT_RIGHT), (kKeyControlL, KEYCODE_CTRL_LEFT),
    (kKeyControlR, KEYCODE_CTRL_RIGHT), (kKeyAltL, KEYCODE_ALT_LEFT),
    (kKeyAltR, KEYCODE_ALT_RIGHT), (kKeyAltGr, KEYCODE_ALT_RIGHT),
    (kKeyMetaL, KEYCODE_META_LEFT), (kKeyMetaR, KEYCODE_META_RIGHT),
    (kKeySuperL, KEYCODE_META_LEFT), (kKeySuperR, KEYCODE_META_RIGHT)]

def systemKeys : List (UInt32 × Int) :=
  [(kKeyPause, KEYCODE_BREAK), (kKeySysReq, KEYCODE_SYSRQ), (kKeyPrint, KEYCODE_PRINT),
    (kKeyBreak, KEYCODE_BREAK), (kKeySleep, KEYCODE_SLEEP), (kKeyEject, KEYCODE_MEDIA_EJECT),
    (kKeyZenkaku, KEYCODE_ZENKAKU_HANKAKU), (kKeyKana, KEYCODE_KATAKANA),
    (kKeyHiraganaKatakana, KEYCODE_KATAKANA_HIRAGANA), (kKeyHenkan, KEYCODE_HENKAN),
    (kKeyHangul, KEYCODE_HANGUEL), (kKeyHanja, KEYCODE_HANJA)]

def mediaKeys : List (UInt32 × Int) :=
  [(kKeyAudioMute, KEYCODE_VOLUME_MUTE), (kKeyAudioDown, KEYCODE_VOLUME_DOWN),
    (kKeyAudioUp, KEYCODE_VOLUME_UP), (kKeyAudioNext, KEYCODE_MEDIA_NEXT),
    (kKeyAudioPrev, KEYCODE_MEDIA_PREVIOUS), (kKeyAudioStop, KEYCODE_MEDIA_STOP),
    (kKeyAudioPlay, KEYCODE_MEDIA_PLAY_PAUSE), (kKeyAppMail, KEYCODE_ENVELOPE),
    (kKeyAppMedia, KEYCODE_MEDIA_PLAY_PAUSE), (kKeyBrightnessDown, KEYCODE_BRIGHTNESS_DOWN),
    (kKeyBrightnessUp, KEYCODE_BRIGHTNESS_UP), (kKeyWWWBack, KEYCODE_FORWARD),
    (kKeyWWWForward, KEYCODE_FORWARDMAIL), (kKeyWWWHome, KEYCODE_HOME),
    (kKeyWWWRefresh, KEYCODE_REFRESH)]

def keypadKeys : List (UInt32 × Int) :=
  [(kKeyKP_Enter, KEYCODE_NUMPAD_ENTER), (kKeyKP_Multiply, KEYCODE_NUMPAD_MULTIPLY),
    (kKeyKP_Add, KEYCODE_NUMPAD_ADD), (kKeyKP_Separator, KEYCODE_NUMPAD_COMMA),
    (kKeyKP_Subtract, KEYCODE_NUMPAD_SUBTRACT), (kKeyKP_Decimal, KEYCODE_NUMPAD_DOT),
    (kKeyKP_Divide, KEYCODE_NUMPAD_DIVIDE), (kKeyKP_Equal, KEYCODE_NUMPAD_EQUALS),
    (kKeyKP_Home, KEYCODE_MOVE_HOME), (kKeyKP_End, KEYCODE_MOVE_END),
    (kKeyKP_PageUp, KEYCODE_PAGE_UP), (kKeyKP_PageDown, KEYCODE_PAGE_DOWN),
    (kKeyKP_Insert, KEYCODE_INSERT), (kKeyKP_Delete, KEYCODE_FORWARD_DEL)]

/-- Upper and lower case letters share a physical key. The high half of the id
is dropped first: ids from `0x8000` on arrive sign-extended. -/
def keysymToKeycode (keysym : UInt32) : Int :=
  let keysym := keysym &&& 0xFFFF
  if (0x61 ≤ keysym ∧ keysym ≤ 0x7A) ∨ (0x41 ≤ keysym ∧ keysym ≤ 0x5A) then
    KEYCODE_A + ((keysym &&& 0x1F).toNat - 1)
  else if 0x30 ≤ keysym ∧ keysym ≤ 0x39 then
    KEYCODE_0 + (keysym - 0x30).toNat
  else match (symbolKeys ++ cursorKeys ++ lockAndModifierKeys ++ systemKeys).lookup keysym with
    | some code => code
    | none =>
      if kKeyF1 ≤ keysym ∧ keysym ≤ kKeyF24 then
        KEYCODE_F1 + (keysym - kKeyF1).toNat
      else match mediaKeys.lookup keysym with
        | some code => code
        | none =>
          if kKeyKP_0 ≤ keysym ∧ keysym ≤ kKeyKP_9 then
            KEYCODE_NUMPAD_0 + (keysym - kKeyKP_0).toNat
          else (keypadKeys.lookup keysym).getD (-1)

example : keysymToKeycode 0x41 = keysymToKeycode 0x61 := by decide

inductive MouseButton
  | left
  | middle
  | right
  deriving DecidableEq, Repr

def buttonToHarmony (buttonId : Int) : Option MouseButton :=
  if buttonId = kButtonLeft then some .left
  else if buttonId = kButtonMiddle then some .middle
  else if buttonId = kButtonRight then some .right
  else none

theorem buttonToHarmony_eq_some {b : Int} {h : MouseButton} :
    buttonToHarmony b = some h ↔
      (b = 1 ∧ h = .left) ∨ (b = 2 ∧ h = .middle) ∨ (b = 3 ∧ h = .right) := by
  unfold buttonToHarmony kButtonLeft kButtonMiddle kButtonRight
  split_ifs <;> cases h <;> simp_all

end Deskflow
