import Deskflow.CarrierRestart
import Deskflow.Lifetime
import Deskflow.StatusText

/-! The page with everything that it hands on: requests to the carrier, the tray, the shared
status, the stored preferences and the native module of its own process. -/

namespace Deskflow

/-- Texts that are shown or exchanged are in UTF-8. -/
def utf8 (text : List Char) : Bytes := text.flatMap String.utf8EncodeChar

/-- The length that ECMAScript gives a text in UTF-8. -/
def utf16Length (text : Bytes) : Nat :=
  text.countP (fun b => b < 0x80 || 0xC0 ≤ b) + text.countP (0xF0 ≤ ·)

def say (s : String) : Bytes := utf8 s.toList

def ConnectPage.defaults : ConnectPage where
  hostInput := []
  portInput := "24800".toList
  screenName := "HarmonyPC".toList
  invertScroll := false
  autoReconnect := true
  clipboardSync := true

/-- The broadcasts of the page and the start of the carrier. -/
inductive PageRequest
  | connection (r : Request)
  | clipPush (text : Bytes)
  deriving DecidableEq

structure IndexPage where
  connState : ConnState := .disconnected
  statusText : Bytes := say "尚未连接 Deskflow 服务端"
  fields : ConnectPage := .defaults
  clipLast : Bytes := []
  lastRemoteClipboard : Bytes := []

/-- What a handler does besides changing the page. -/
inductive PageEffect
  | publish (r : PageRequest)
  | native (k : DeskflowClient.Call)
  | syncTray (connState : ConnState) (statusText : Bytes)
  | savePrefs
  | requestPermission
  | setData (text : Bytes)

/-- What comes to the page: clicks, switches and typed text, broadcasts of the carrier,
notices of the pasteboard with what can be read of it, and the ends of the calls it waits
for. The tray menu has its clicks handled by the page. -/
inductive PageEvent
  | connect
  | disconnect
  | bgStatus (value : Bytes)
  | bgClip (value : Bytes)
  | invertScroll (isOn : Bool)
  | autoReconnect (isOn : Bool)
  | clipboardSync (isOn : Bool)
  | permission (granted : Bool)
  | paste (text : Bytes)
  | pasteRefused (code : Bytes)
  | pasteboardUpdate (text : Bytes)
  | typed (hostInput portInput screenName : List Char)
  | prefsRead (prefs : ConnectPage)
  | prefsSaved

namespace IndexPage

/-- `onConnect`, in which `startBg` stops the carrier that may be left. -/
def onConnect (page : IndexPage) : IndexPage × List PageEffect :=
  let host := trimText page.fields.hostInput
  if host.length = 0 then ({ page with statusText := say "请先填写服务端 IP/地址" }, [])
  else
    let text := say "正在连接 " ++ utf8 host ++ say ":" ++ utf8 page.fields.portInput ++ say "..."
    ({ page with connState := .connecting, statusText := text },
      page.fields.onConnect.map (fun r => .publish (.connection r)) ++
        [.savePrefs, .syncTray .connecting text])

def onDisconnect (page : IndexPage) : IndexPage × List PageEffect :=
  let text := say "正在断开连接..."
  ({ page with connState := .disconnected, statusText := text },
    [.publish (.connection .stop), .syncTray .disconnected text])

def onBgStatus (value : Bytes) (page : IndexPage) : IndexPage × List PageEffect :=
  let connState := mapStatus page.connState value
  ({ page with connState := connState, statusText := value }, [.syncTray connState value])

def setSystemClipboard (value : Bytes) (page : IndexPage) : List PageEffect :=
  if !page.fields.clipboardSync || value.isEmpty then [] else [.setData value]

def onBgClip (value : Bytes) (page : IndexPage) : IndexPage × List PageEffect :=
  let page := { page with lastRemoteClipboard := value }
  (page, page.setSystemClipboard value)

def pushLocalClipboard (text : Bytes) (page : IndexPage) : List PageEffect :=
  if !page.fields.clipboardSync then []
  else if !text.isEmpty && text != page.lastRemoteClipboard then [.publish (.clipPush text)]
  else []

/-- The listener for the `update` of the pasteboard. -/
def onUpdate (text : Bytes) (page : IndexPage) : IndexPage × List PageEffect :=
  (page, if page.fields.clipboardSync then page.pushLocalClipboard text else [])

def onPasteButtonClick (text : Bytes) (page : IndexPage) : IndexPage × List PageEffect :=
  let page := { page with clipLast := text }
  let count := utf8 (Nat.repr (utf16Length text)).toList
  if text.isEmpty then ({ page with statusText := say "剪贴板为空或非纯文本，未同步" }, [])
  else if text = page.lastRemoteClipboard then
    ({ page with
        statusText := say "剪贴板内容已是最新（" ++ count ++ say " 字符），无需重复同步" }, [])
  else
    let enabled := { page with fields := { page.fields with clipboardSync := true } }
    ({ enabled with statusText := say "已读取本机剪贴板并同步（" ++ count ++ say " 字符）" },
      (if !page.fields.clipboardSync then [.native (.setClipboardSync true), .savePrefs] else []) ++
        enabled.pushLocalClipboard text)

def onPasteRefused (code : Bytes) (page : IndexPage) : IndexPage :=
  { page with
    statusText := say "此按钮需用户亲自点击才能读取剪贴板（授权失败 " ++ code ++ say "），请重试" }

def onInvertScroll (isOn : Bool) (page : IndexPage) : IndexPage × List PageEffect :=
  ({ page with
      fields := { page.fields with invertScroll := isOn }
      statusText := say (if isOn then "invert scroll ON" else "invert scroll OFF") },
    [.native (.setInvertScroll isOn), .savePrefs])

def onAutoReconnect (isOn : Bool) (page : IndexPage) : IndexPage × List PageEffect :=
  ({ page with
      fields := { page.fields with autoReconnect := isOn }
      statusText := say (if isOn then "auto reconnect ON" else "auto reconnect OFF") },
    [.native (.setAutoReconnect 3000), .savePrefs])

def onClipboardSync (isOn : Bool) (page : IndexPage) : IndexPage × List PageEffect :=
  ({ page with
      fields := { page.fields with clipboardSync := isOn }
      statusText := say (if isOn then "clipboard sync ON" else "clipboard sync OFF") },
    [.native (.setClipboardSync isOn), .savePrefs] ++ if isOn then [.requestPermission] else [])

/-- `requestClipboardPermission` when the user has answered. -/
def onPermission (granted : Bool) (page : IndexPage) : IndexPage × List PageEffect :=
  if !granted then
    ({ page with
        fields := { page.fields with clipboardSync := false }
        statusText := say "未授权读取剪贴板，剪贴板同步已关闭" }, [.savePrefs])
  else ({ page with statusText := say "剪贴板读取权限已授权" }, [])

/-- `loadPrefs` when the preferences have been read. -/
def onPrefs (prefs : ConnectPage) (page : IndexPage) : IndexPage × List PageEffect :=
  let page := { page with fields := prefs }
  if page.fields.autoReconnect && decide (0 < (trimText page.fields.hostInput).length) &&
      page.connState = .disconnected then
    page.onConnect
  else (page, [])

def handle : PageEvent → IndexPage → IndexPage × List PageEffect
  | .connect, page => page.onConnect
  | .disconnect, page => page.onDisconnect
  | .bgStatus value, page => page.onBgStatus value
  | .bgClip value, page => page.onBgClip value
  | .invertScroll isOn, page => page.onInvertScroll isOn
  | .autoReconnect isOn, page => page.onAutoReconnect isOn
  | .clipboardSync isOn, page => page.onClipboardSync isOn
  | .permission granted, page => page.onPermission granted
  | .paste text, page => page.onPasteButtonClick text
  | .pasteRefused code, page => (page.onPasteRefused code, [])
  | .pasteboardUpdate text, page => page.onUpdate text
  | .typed hostInput portInput screenName, page =>
    ({ page with
        fields := { page.fields with
          hostInput := hostInput, portInput := portInput, screenName := screenName } }, [])
  | .prefsRead prefs, page => page.onPrefs prefs
  | .prefsSaved, page => (page, [])

end IndexPage

/-- The quick view of the status bar. -/
structure StatusBarQuickView where
  state : ConnState
  statusText : Bytes
  deriving DecidableEq

/-- The status shared in the process; each listener belongs to a quick view. -/
structure DeskflowStatusStore where
  state : ConnState := .disconnected
  statusText : Bytes := say "未连接"
  views : List StatusBarQuickView := []

namespace DeskflowStatusStore

def setState (state : ConnState) (statusText : Bytes) (store : DeskflowStatusStore) :
    DeskflowStatusStore where
  state := state
  statusText := statusText
  views := store.views.map fun _ => ⟨state, statusText⟩

/-- A quick view appears: it registers its listener and reads both values. -/
def appear (store : DeskflowStatusStore) : DeskflowStatusStore :=
  { store with views := store.views ++ [⟨store.state, store.statusText⟩] }

end DeskflowStatusStore

/-- A launch of the page, with the preferences as they are stored, the calls that it waits
for and all that it has requested, written to the pasteboard and told the tray. -/
structure Launch where
  page : IndexPage := {}
  prefs : Option ConnectPage := none
  loading : Bool := true
  saving : Nat := 0
  asking : Nat := 0
  native : DeskflowClient := .fresh []
  store : DeskflowStatusStore := {}
  updates : List ConnState := []
  published : List PageRequest := []
  written : List Bytes := []

namespace Launch

def apply (σ : Launch) : PageEffect → Launch
  | .publish r => { σ with published := σ.published ++ [r] }
  | .native k => { σ with native := σ.native.call k }
  | .syncTray connState statusText =>
    { σ with
      store := σ.store.setState connState statusText
      updates := σ.updates ++ [connState] }
  | .savePrefs => { σ with saving := σ.saving + 1 }
  | .requestPermission => { σ with asking := σ.asking + 1 }
  | .setData text => { σ with written := σ.written ++ [text] }

/-- Only a call that has been made can end. -/
def Awaits (σ : Launch) : PageEvent → Prop
  | .permission _ => 0 < σ.asking
  | .prefsRead prefs => σ.loading = true ∧ prefs = σ.prefs.getD .defaults
  | .prefsSaved => 0 < σ.saving
  | _ => True

/-- The end of a call. `savePrefs` puts the fields as they are by then. -/
def settle (σ : Launch) : PageEvent → Launch
  | .permission _ => { σ with asking := σ.asking - 1 }
  | .prefsRead _ => { σ with loading := false }
  | .prefsSaved => { σ with prefs := some σ.page.fields, saving := σ.saving - 1 }
  | _ => σ

def handle (e : PageEvent) (σ : Launch) : Launch :=
  (σ.page.handle e).2.foldl apply { σ.settle e with page := (σ.page.handle e).1 }

/-- The events of a launch from one state to another; quick views may appear at any time. -/
inductive Run : Launch → List PageEvent → Launch → Prop
  | nil (σ : Launch) : Run σ [] σ
  | handle {σ σ' : Launch} {es : List PageEvent} (e : PageEvent) : Run σ es σ' → σ'.Awaits e →
      Run σ (es ++ [e]) (σ'.handle e)
  | appear {σ σ' : Launch} {es : List PageEvent} : Run σ es σ' →
      Run σ es { σ' with store := σ'.store.appear }

end Launch

end Deskflow
