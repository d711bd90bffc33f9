import Mathlib.Data.List.Basic

/-! Message formats, limits, key ids and button ids of the protocol. -/

namespace Deskflow

abbrev Bytes := List UInt8

def ascii (s : String) : Bytes := s.toList.map fun c => UInt8.ofNat c.toNat

def kProtocolMajorVersion : Int := 1
def kProtocolMinorVersion : Int := 8
def kHelloNameLength : Nat := 7

def kMsgHello : Bytes := ascii "%7s%2i%2i"
def kMsgHelloBack : Bytes := ascii "%7s%2i%2i%s"

def kMsgCNoop : Bytes := ascii "CNOP"
def kMsgCClose : Bytes := ascii "CBYE"
def kMsgCEnter : Bytes := ascii "CINN%2i%2i%4i%2i"
def kMsgCLeave : Bytes := ascii "COUT"
def kMsgCClipboard : Bytes := ascii "CCLP%1i%4i"
def kMsgCScreenSaver : Bytes := ascii "CSEC%1i"
def kMsgCResetOptions : Bytes := ascii "CROP"
def kMsgCInfoAck : Bytes := ascii "CIAK"
def kMsgCKeepAlive : Bytes := ascii "CALV"

def kMsgDKeyDownLang : Bytes := ascii "DKDL%2i%2i%2i%s"
def kMsgDKeyDown : Bytes := ascii "DKDN%2i%2i%2i"
def kMsgDKeyRepeat : Bytes := ascii "DKRP%2i%2i%2i%2i%s"
def kMsgDKeyUp : Bytes := ascii "DKUP%2i%2i%2i"
def kMsgDMouseDown : Bytes := ascii "DMDN%1i"
def kMsgDMouseUp : Bytes := ascii "DMUP%1i"
def kMsgDMouseMove : Bytes := ascii "DMMV%2i%2i"
def kMsgDMouseRelMove : Bytes := ascii "DMRM%2i%2i"
def kMsgDMouseWheel : Bytes := ascii "DMWM%2i%2i"
def kMsgDClipboard : Bytes := ascii "DCLP%1i%4i%1i%s"
def kMsgDInfo : Bytes := ascii "DINF%2i%2i%2i%2i%2i%2i%2i"
def kMsgDSetOptions : Bytes := ascii "DSOP%4I"
def kMsgDFileTransfer : Bytes := ascii "DFTR%1i%s"
def kMsgDDragInfo : Bytes := ascii "DDRG%2i%s"
def kMsgDSecureInputNotification : Bytes := ascii "SECN%s"
def kMsgDLanguageSynchronisation : Bytes := ascii "LSYN%s"

def kMsgQInfo : Bytes := ascii "QINF"

def kMsgEIncompatible : Bytes := ascii "EICV%2i%2i"
def kMsgEBusy : Bytes := ascii "EBSY"
def kMsgEUnknown : Bytes := ascii "EUNK"
def kMsgEBad : Bytes := ascii "EBAD"

def kProtocolMaxStringLength : Nat := 1024 * 1024

def kKeyModifierShift : UInt32 := 0x0001
def kKeyModifierControl : UInt32 := 0x0002
def kKeyModifierAlt : UInt32 := 0x0004
def kKeyModifierMeta : UInt32 := 0x0008
def kKeyModifierSuper : UInt32 := 0x0010
def kKeyModifierAltGr : UInt32 := 0x0020

def kKeyNone : UInt32 := 0x0000
def kKeyBackSpace : UInt32 := 0xEF08
def kKeyTab : UInt32 := 0xEF09
def kKeyLinefeed : UInt32 := 0xEF0A
def kKeyClear : UInt32 := 0xEF0B
def kKeyReturn : UInt32 := 0xEF0D
def kKeyPause : UInt32 := 0xEF13
def kKeyScrollLock : UInt32 := 0xEF14
def kKeySysReq : UInt32 := 0xEF15
def kKeyEscape : UInt32 := 0xEF1B
def kKeyHenkan : UInt32 := 0xEF23
def kKeyKana : UInt32 := 0xEF26
def kKeyHiraganaKatakana : UInt32 := 0xEF27
def kKeyZenkaku : UInt32 := 0xEF2A
def kKeyHangul : UInt32 := 0xEF31
def kKeyHanja : UInt32 := 0xEF34
def kKeyDelete : UInt32 := 0xEFFF
def kKeyHome : UInt32 := 0xEF50
def kKeyLeft : UInt32 := 0xEF51
def kKeyUp : UInt32 := 0xEF52
def kKeyRight : UInt32 := 0xEF53
def kKeyDown : UInt32 := 0xEF54
def kKeyPageUp : UInt32 := 0xEF55
def kKeyPageDown : UInt32 := 0xEF56
def kKeyEnd : UInt32 := 0xEF57
def kKeySelect : UInt32 := 0xEF60
def kKeyPrint : UInt32 := 0xEF61
def kKeyExecute : UInt32 := 0xEF62
def kKeyInsert : UInt32 := 0xEF63
def kKeyUndo : UInt32 := 0xEF65
def kKeyRedo : UInt32 := 0xEF66
def kKeyMenu : UInt32 := 0xEF67
def kKeyFind : UInt32 := 0xEF68
def kKeyCancel : UInt32 := 0xEF69
def kKeyHelp : UInt32 := 0xEF6A
def kKeyBreak : UInt32 := 0xEF6B
def kKeyAltGr : UInt32 := 0xEF7E
def kKeyNumLock : UInt32 := 0xEF7F
def kKeyKP_Enter : UInt32 := 0xEF8D
def kKeyKP_Home : UInt32 := 0xEF95
def kKeyKP_PageUp : UInt32 := 0xEF9A
def kKeyKP_PageDown : UInt32 := 0xEF9B
def kKeyKP_End : UInt32 := 0xEF9C
def kKeyKP_Insert : UInt32 := 0xEF9E
def kKeyKP_Delete : UInt32 := 0xEF9F
def kKeyKP_Multiply : UInt32 := 0xEFAA
def kKeyKP_Add : UInt32 := 0xEFAB
def kKeyKP_Separator : UInt32 := 0xEFAC
def kKeyKP_Subtract : UInt32 := 0xEFAD
def kKeyKP_Decimal : UInt32 := 0xEFAE
def kKeyKP_Divide : UInt32 := 0xEFAF
def kKeyKP_0 : UInt32 := 0xEFB0
def kKeyKP_9 : UInt32 := 0xEFB9
def kKeyKP_Equal : UInt32 := 0xEFBD
def kKeyF1 : UInt32 := 0xEFBE
def kKeyF24 : UInt32 := 0xEFD5
def kKeyShiftL : UInt32 := 0xEFE1
def kKeyShiftR : UInt32 := 0xEFE2
def kKeyControlL : UInt32 := 0xEFE3
def kKeyControlR : UInt32 := 0xEFE4
def kKeyCapsLock : UInt32 := 0xEFE5
def kKeyMetaL : UInt32 := 0xEFE7
def kKeyMetaR : UInt32 := 0xEFE8
def kKeyAltL : UInt32 := 0xEFE9
def kKeyAltR : UInt32 := 0xEFEA
def kKeySuperL : UInt32 := 0xEFEB
def kKeySuperR : UInt32 := 0xEFEC
def kKeyLeftTab : UInt32 := 0xEE20
def kKeyEject : UInt32 := 0xE001
def kKeySleep : UInt32 := 0xE05F
def kKeyWWWBack : UInt32 := 0xE0A6
def kKeyWWWForward : UInt32 := 0xE0A7
def kKeyWWWRefresh : UInt32 := 0xE0A8
def kKeyWWWHome : UInt32 := 0xE0AC
def kKeyAudioMute : UInt32 := 0xE0AD
def kKeyAudioDown : UInt32 := 0xE0AE
def kKeyAudioUp : UInt32 := 0xE0AF
def kKeyAudioNext : UInt32 := 0xE0B0
def kKeyAudioPrev : UInt32 := 0xE0B1
def kKeyAudioStop : UInt32 := 0xE0B2
def kKeyAudioPlay : UInt32 := 0xE0B3
def kKeyAppMail : UInt32 := 0xE0B4
def kKeyAppMedia : UInt32 := 0xE0B5
def kKeyBrightnessDown : UInt32 := 0xE0B8
def kKeyBrightnessUp : UInt32 := 0xE0B9

def kButtonLeft : Int := 1
def kButtonMiddle : Int := 2
def kButtonRight : Int := 3
def kButtonWheelUp : Int := 4
def kButtonWheelDown : Int := 5

end Deskflow
