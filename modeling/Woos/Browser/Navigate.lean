import Woos.Browser.Resolve

/-!
# The string buffers of the browser

`navigate_to`, `do_download` and `submit_form` with the buffers in which they put strings together.
A function has no result when it would write behind the end of a buffer, or use one without a
terminating zero.  What the file system and the network answer is a parameter (`Answers`); laying
out the page that has been loaded is left out.
-/

namespace Browser.Address

/-- The string of a literal. -/
def str (s : String) : CString := .ofBytes (ascii s)

/-- `MAX_HTML_SIZE` -/
def maxHtmlSize : Nat := 393216

/-- `MAX_HISTORY` -/
def maxHistory : Nat := 32

/-- What the calls of the system give. -/
structure Answers where
  /-- what can be read of a local file, or `none` when it cannot be opened -/
  file : Option (List UInt8)
  /-- the result of `woos_net_fetch` -/
  fetched : Int
  /-- what `woos_net_fetch` leaves in `g_html` -/
  page : List UInt8
  /-- the result of `woos_net_download` -/
  downloaded : Int
  file_lt : ∀ bytes, file = some bytes → bytes.length < maxHtmlSize
  fetched_lt : fetched < maxHtmlSize
  downloaded_lt : downloaded < 2 ^ 31

/-- The variables of the browser that are about addresses. -/
structure State where
  url : StringBuffer 512
  history : Nat → StringBuffer 512
  historyIdx : Int
  historyCount : Int
  html : StringBuffer maxHtmlSize
  status : StringBuffer 128
  le_historyIdx : -1 ≤ historyIdx

theorem State.le_next (s : State) :
  -1 ≤ s.historyIdx + 1
  := by
  have := s.le_historyIdx
  omega

/-- `set_status`: as much of a message as there is room for. -/
def State.setStatus (s : State) (msg : CString) : State :=
  { s with status := .cut msg (by decide) }

/-! ### Encoding -/

/-- A byte that `url_encode` leaves as it is: a letter, a digit, or one of `-`, `_`, `.`, `~`. -/
def isUnreserved (c : UInt8) : Bool :=
  (97 ≤ c ∧ c ≤ 122) ∨ (65 ≤ c ∧ c ≤ 90) ∨ (48 ≤ c ∧ c ≤ 57) ∨ c = 45 ∨ c = 95 ∨ c = 46 ∨ c = 126

/-- A byte of the table `hex`. -/
def hexDigit (n : UInt8) : UInt8 := (ascii "0123456789ABCDEF").getD n.toNat 0

/-- What `url_encode` writes for a byte. -/
def encodeByte (c : UInt8) : List UInt8 :=
  if isUnreserved c then [c]
  else if c = 32 then [43]
  else [37, hexDigit (c >>> 4 &&& 15), hexDigit (c &&& 15)]

/-- The loop of `url_encode`, with what has been written. -/
def encodeLoop (maxLen : Nat) : List UInt8 → List UInt8 → List UInt8
  | [], dst => dst
  | c :: src, dst =>
    if dst.length + 4 < maxLen then encodeLoop maxLen src (dst ++ encodeByte c) else dst

/-- `url_encode`, for a buffer of at least four bytes. -/
def urlEncode (src : CString) (maxLen : Nat) : CString := .ofBytes (encodeLoop maxLen src.bytes [])

/-- The digits of a number, the last one first: the first loop of `int_to_str`, whose buffer `tmp` has
16 bytes. -/
def digitsLoop : Nat → Nat → List UInt8 → List UInt8
  | 0, _, digits => digits
  | n + 1, val, digits =>
    if val = 0 then digits else digitsLoop n (val / 10) (.ofNat (48 + val % 10) :: digits)

/-- `int_to_str` -/
def intToStr (val : Nat) : CString :=
  .ofBytes (if val = 0 then [48] else digitsLoop 16 val [])

/-! ### Downloads -/

/-- The endings that `is_downloadable` compares with. -/
def downloadEndings : List String :=
  [".zip", ".ZIP", ".wasm", ".WASM", ".bin", ".BIN", ".iso", ".ISO", ".tar", ".TAR", ".gz", ".GZ",
    ".mp3", ".MP3"]

/-- `is_downloadable` -/
def isDownloadable (url : CString) : Bool :=
  downloadEndings.any (fun ext => (ascii ext).isSuffixOf url.bytes)

/-- `fname` in `do_download` -/
def downloadName (url : CString) : CString :=
  let fname := fileName url.bytes
  if fname = [] ∨ 63 ∈ fname then str "DOWNLOAD.BIN" else .ofBytes fname

/-- `do_download` -/
def doDownload (a : Answers) (url : CString) (s : State) : Option State :=
  if url.bytes = [] then some s
  else do
    let fname := downloadName url
    let destPath : StringBuffer 64 ← StringBuffer.strcpy (str "/DESKTOP/")
    let _destPath ← destPath.strncat fname (64 - destPath.string.length - 1)
    let stat : StringBuffer 128 ← StringBuffer.strcpy (str "Downloading ")
    let stat ← stat.strcat fname
    let stat ← stat.strcat (str " to /DESKTOP/...")
    let s := s.setStatus stat.string
    if 0 ≤ a.downloaded then do
      let msg : StringBuffer 128 ← StringBuffer.strcpy (str "Downloaded ")
      let msg ← msg.strcat fname
      let msg ← msg.strcat (str " (")
      let nbuf : StringBuffer 16 ← StringBuffer.strcpy (intToStr a.downloaded.toNat)
      let msg ← msg.strcat nbuf.string
      let msg ← msg.strcat (str " bytes) to /DESKTOP/")
      some (s.setStatus msg.string)
    else some (s.setStatus (str "Download failed: connection error or write failure."))

/-! ### Navigation -/

/-- A byte that is skipped in front of an address. -/
def isLeading (c : UInt8) : Bool := c = 32 ∨ c = 9

/-- A byte that is removed at the end of an address. -/
def isTrailing (c : UInt8) : Bool := c = 32 ∨ c = 13 ∨ c = 10

/-- `norm_url` after the first loops of `navigate_to`. -/
def trimmed (target : CString) : CString :=
  .ofBytes ((((target.bytes.dropWhile isLeading).take 511).reverse.dropWhile isTrailing).reverse)

/-- The address to search for words with. -/
def searchUrl : CString := str "https://html.duckduckgo.com/html/?q="

/-- Words to search for, and addresses without a scheme. -/
def completeUrl (norm : StringBuffer 512) : Option (StringBuffer 512) :=
  if norm.string.bytes.head? ≠ some 47 ∧ !isAbsolute norm.string.bytes then
    if 32 ∈ norm.string.bytes ∨ 46 ∉ norm.string.bytes then do
      let enc : StringBuffer 256 ← StringBuffer.strcpy (urlEncode norm.string 256)
      let search : StringBuffer 512 ← StringBuffer.strncpyZero searchUrl 511
      let search ← search.strncat enc.string (512 - search.string.length - 1)
      StringBuffer.strncpyZero search.string 511
    else do
      let full : StringBuffer 512 ← StringBuffer.strcpy (str "https://")
      let full ← full.strncat norm.string 503
      StringBuffer.strncpyZero full.string 511
  else some norm

/-- The mode without scripts of one search engine. -/
def pureHtml (norm : StringBuffer 512) : Option (StringBuffer 512) :=
  if contains norm.string.bytes (ascii "google.") ∧ !contains norm.string.bytes (ascii "gbv=") then
    norm.strncat (str (if 63 ∈ norm.string.bytes then "&gbv=1" else "?gbv=1"))
      (512 - norm.string.length - 1)
  else some norm

/-- `norm_url` -/
def normUrl (target : CString) : Option (StringBuffer 512) := do
  let norm ← StringBuffer.strcpy (trimmed target)
  let norm ← completeUrl norm
  pureHtml norm

/-- The address becomes the next entry of the history. -/
def State.remember (s : State) : State :=
  if h : s.historyIdx < maxHistory - 1 then
    { s with
      history := Function.update s.history (s.historyIdx + 1).toNat s.url
      historyIdx := s.historyIdx + 1
      historyCount := s.historyIdx + 1 + 1
      le_historyIdx := by have := s.le_historyIdx; omega }
  else s

/-- An address of a local file. -/
def isLocal (url : CString) : Bool := url.bytes.head? = some 47 ∨ (ascii "file://").isPrefixOf url.bytes

/-- `fpath` -/
def localPath (url : CString) : CString :=
  if (ascii "file://").isPrefixOf url.bytes then .ofBytes (url.bytes.drop 7) else url

/-- A local file has been read. -/
def loadLocal (bytes : List UInt8) (s : State) : Option State := do
  let html ← StringBuffer.strcpy (.ofBytes bytes)
  let sbuf : StringBuffer 64 ← StringBuffer.strcpy (str "Loaded local file: ")
  let sbuf ← sbuf.strcat (localPath s.url.string)
  some ({ s with html }.setStatus sbuf.string)

/-- What is in `g_html` after a failure is the message, up to the end of its line. -/
def errorMessage (page : List UInt8) : CString :=
  let line := (CString.ofBytes page).bytes
  if line ≠ [] then .ofBytes ((line.takeWhile (· != 10)).take 127)
  else str "Connection failed. Check network or address."

/-- The page about an error, up to the message. -/
def errorStart : CString :=
  (str "<html><body><h1>Unable to connect</h1><hr/>").append
    ((str "<p>WoOS Browser could not load the requested webpage.</p>").append
      (str "<p><b>Diagnostic:</b> "))

/-- The page about an error, behind the message. -/
def errorEnd : CString :=
  str "</p><p><a href=\"/WELCOME.HTM\">Return to Home</a></p></body></html>"

/-- The page is loaded from the network. -/
def loadNetwork (a : Answers) (s : State) : Option State := do
  let stat : StringBuffer 128 ← StringBuffer.strcpy (str "Connecting to ")
  let stat ← stat.strncat s.url.string 60
  let stat ← stat.strcat (str "...")
  let s := s.setStatus stat.string
  if a.fetched < 0 then do
    let errMsg : StringBuffer 128 ← StringBuffer.strcpy (errorMessage a.page)
    let html : StringBuffer maxHtmlSize ← StringBuffer.strcpy errorStart
    let html ← html.strcat errMsg.string
    let html ← html.strcat errorEnd
    some ({ s with html }.setStatus errMsg.string)
  else do
    let html ← StringBuffer.strcpy (.ofBytes (a.page.take a.fetched.toNat))
    let nbuf : StringBuffer 16 ← StringBuffer.strcpy (intToStr a.fetched.toNat)
    let sbuf : StringBuffer 128 ← StringBuffer.strcpy (str "Loaded ")
    let sbuf ← sbuf.strcat nbuf.string
    let sbuf ← sbuf.strcat (str " bytes")
    some ({ s with html }.setStatus sbuf.string)

/-- `navigate_to` -/
def navigateTo (a : Answers) (target : CString) (addHistory : Bool) (s : State) : Option State :=
  if target.bytes = [] then some s
  else do
    let url ← normUrl target
    if isDownloadable url.string then doDownload a url.string s
    else do
      let url : StringBuffer 512 ← StringBuffer.strncpyZero url.string 511
      let s := if addHistory then { s with url }.remember else { s with url }
      match a.file, isLocal url.string with
      | some bytes, true => loadLocal bytes s
      | _, _ => loadNetwork a s

/-! ### Forms -/

/-- The strings of `browser_input_t` that a form is submitted with. -/
structure Input where
  name : StringBuffer 32
  value : StringBuffer 128
  formAction : StringBuffer 512

/-- `strncat` with what is left of `target_url`. -/
def addRest (target : StringBuffer 512) (s : CString) : Option (StringBuffer 512) :=
  target.strncat s (512 - target.string.length - 1)

/-- `target_url` in `submit_form` -/
def submitTarget (url : CString) (inp : Input) : Option (StringBuffer 512) := do
  let encVal : StringBuffer 256 ← StringBuffer.strcpy (urlEncode inp.value.string 256)
  if inp.formAction.string.bytes = [] then do
    let target : StringBuffer 512 ← StringBuffer.strcpy searchUrl
    addRest target encVal.string
  else do
    let target ← resolveUrl url inp.formAction.string 512
    if inp.value.string.bytes = [] then some target
    else do
      let target ← addRest target (str (if 63 ∈ target.string.bytes then "&" else "?"))
      let target ← addRest target (if inp.name.string.bytes = [] then str "q" else inp.name.string)
      let target ← addRest target (str "=")
      let target ← addRest target encVal.string
      if contains target.string.bytes (ascii "google.")
          ∧ !contains target.string.bytes (ascii "gbv=") then
        addRest target (str "&gbv=1")
      else some target

/-- `submit_form`, for an input of the page. -/
def submitForm (a : Answers) (inp : Input) (s : State) : Option State := do
  let target ← submitTarget s.url.string inp
  navigateTo a target.string true s

/-! ### When the buffers are large enough -/

/-- The address in the page is not relative, or the base has a slash behind the scheme, or room for
one. -/
def ResolveFits (base href : CString) : Prop :=
  href.bytes = [] ∨ isAbsolute href.bytes = true ∨ (ascii "/").isPrefixOf href.bytes = true
    ∨ 47 ∈ hierarchy base.bytes ∨ base.length < 511

/-- The messages about a download have room for the name and the size of the file. -/
def DownloadFits (a : Answers) (url : CString) : Prop :=
  url.bytes ≠ [] → (downloadName url).length ≤ 99
    ∧ (0 ≤ a.downloaded →
      (downloadName url).length + (intToStr a.downloaded.toNat).length ≤ 94)

/-- The message about a local file has room for its path. -/
def LocalFits (a : Answers) (url : CString) : Prop :=
  a.file.isSome = true → isLocal url = true → (localPath url).length ≤ 44

/-- The messages about the address have room. -/
def NavigateFits (a : Answers) (target : CString) : Prop :=
  target.bytes ≠ [] → ∀ url, normUrl target = some url →
    if isDownloadable url.string then DownloadFits a url.string else LocalFits a url.string

/-- The address of the form can be put together, and the messages about it have room. -/
def SubmitFits (a : Answers) (url : CString) (inp : Input) : Prop :=
  (inp.formAction.string.bytes ≠ [] → ResolveFits url inp.formAction.string)
    ∧ ∀ target, submitTarget url inp = some target → NavigateFits a target.string

/-! ### Lengths -/

theorem length_encodeByte_le (c : UInt8) :
  (encodeByte c).length ≤ 3
  := by
  rw [encodeByte]
  split_ifs <;> simp

/-- The loop stops before the end of the buffer. -/
theorem length_encodeLoop_lt {maxLen : Nat} (src : List UInt8) {dst : List UInt8}
    (h : dst.length < maxLen) :
  (encodeLoop maxLen src dst).length < maxLen
  := by
  induction src generalizing dst with
  | nil => exact h
  | cons c src ih =>
      rw [encodeLoop]
      split
      case isTrue hroom =>
        apply ih
        have hbyte := length_encodeByte_le c
        rw [List.length_append]
        omega
      case isFalse => exact h

theorem length_urlEncode_lt (src : CString) {maxLen : Nat} (h : 0 < maxLen) :
  (urlEncode src maxLen).length < maxLen
  := Nat.lt_of_le_of_lt (CString.length_ofBytes_le _) (length_encodeLoop_lt _ h)

/-- A number below `10 ^ k` has at most `k` digits. -/
theorem length_digitsLoop_le {n val k : Nat} (digits : List UInt8) (h : val < 10 ^ k) :
  (digitsLoop n val digits).length ≤ digits.length + k
  := by
  induction n generalizing val k digits with
  | zero => exact Nat.le_add_right _ _
  | succ n ih =>
      rw [digitsLoop]
      split
      case isTrue => exact Nat.le_add_right _ _
      case isFalse hval =>
        cases k with
        | zero => omega
        | succ k =>
            rw [Nat.pow_succ] at h
            have hlt : val / 10 < 10 ^ k := by omega
            have hrest := ih (.ofNat (48 + val % 10) :: digits) hlt
            rw [List.length_cons] at hrest
            omega

theorem length_intToStr_le {val : Nat} (h : val < 2 ^ 31) :
  (intToStr val).length ≤ 10
  := by
  apply (CString.length_ofBytes_le _).trans
  split
  · decide
  · have hpow : val < 10 ^ 10 := h.trans (by decide)
    simpa using length_digitsLoop_le [] hpow

theorem length_trimmed_lt (target : CString) :
  (trimmed target).length < 512
  := by
  apply Nat.lt_succ_of_le
  apply (CString.length_ofBytes_le _).trans
  rw [List.length_reverse]
  apply (List.dropWhile_sublist _).length_le.trans
  rw [List.length_reverse]
  apply List.length_take_le

/-! ### The address -/

theorem completeUrl_eq_some (norm : StringBuffer 512) :
  ∃ url, completeUrl norm = some url
  := by
  have henc : (urlEncode norm.string 256).length < 256 := length_urlEncode_lt _ (by decide)
  have hscheme : (str "https://").length < 512 := by decide
  have hfull : ((str "https://").append (norm.string.truncate 503)).length < 512 := by
    have hlength : (str "https://").length = 8 := rfl
    rw [CString.length_append, CString.length_truncate, hlength]
    omega
  rw [completeUrl]
  split_ifs
  · rw [StringBuffer.strcpy_eq_some henc, Option.bind_eq_bind, Option.bind_some,
      StringBuffer.strncpyZero_eq_some _ (by decide), Option.bind_eq_bind, Option.bind_some,
      StringBuffer.strncat_rest, Option.bind_some, StringBuffer.strncpyZero_eq_some _ (by decide)]
    exact ⟨_, rfl⟩
  · rw [StringBuffer.strcpy_eq_some hscheme, Option.bind_eq_bind, Option.bind_some,
      StringBuffer.strncat, StringBuffer.strcat, StringBuffer.strcpy_eq_some hfull,
      Option.bind_some, StringBuffer.strncpyZero_eq_some _ (by decide)]
    exact ⟨_, rfl⟩
  · exact ⟨norm, rfl⟩

theorem pureHtml_eq_some (norm : StringBuffer 512) :
  ∃ url, pureHtml norm = some url
  := by
  rw [pureHtml]
  split
  · exact ⟨_, StringBuffer.strncat_rest _ _⟩
  · exact ⟨norm, rfl⟩

/-- The address is always put together inside its buffers. -/
theorem normUrl_eq_some (target : CString) :
  ∃ url, normUrl target = some url
  := by
  obtain ⟨url, hurl⟩ := completeUrl_eq_some ⟨trimmed target, length_trimmed_lt target⟩
  rw [normUrl, StringBuffer.strcpy_eq_some (length_trimmed_lt target), Option.bind_eq_bind,
    Option.bind_some, hurl, Option.bind_some]
  apply pureHtml_eq_some

/-! ### The functions -/

theorem doDownload_isSome_iff (a : Answers) (url : CString) (s : State) :
  (doDownload a url s).isSome ↔ DownloadFits a url
  := by
  rw [doDownload, DownloadFits]
  split
  case isTrue h => simp [h]
  case isFalse h =>
    have hdesktop : (str "/DESKTOP/").length < 64 := by decide
    have hdigits : 0 ≤ a.downloaded → (intToStr a.downloaded.toNat).length < 16 := by
      intro hpos
      have hlt := a.downloaded_lt
      apply Nat.lt_of_le_of_lt (length_intToStr_le (by omega))
      decide
    have hstat : (str "Downloading ").length = 12 ∧ (str " to /DESKTOP/...").length = 16 :=
      ⟨rfl, rfl⟩
    have hmsg : (str "Downloaded ").length = 11 ∧ (str " (").length = 2
        ∧ (str " bytes) to /DESKTOP/").length = 20 := ⟨rfl, rfl, rfl⟩
    rw [StringBuffer.strcpy_eq_some hdesktop, Option.bind_eq_bind, Option.bind_some,
      StringBuffer.strncat_rest, Option.bind_some]
    by_cases hdone : 0 ≤ a.downloaded
    · have hlt := hdigits hdone
      simp only [if_pos hdone, Option.bind_eq_bind, StringBuffer.strcat,
        StringBuffer.strcpy_bind_isSome_iff, CString.length_append, hstat, hmsg, Option.isSome_some]
      simp only [exists_prop, and_true]
      constructor
      · intro hfits _
        omega
      · intro hfits
        have := hfits h
        omega
    · simp only [if_neg hdone, Option.bind_eq_bind, StringBuffer.strcat,
        StringBuffer.strcpy_bind_isSome_iff, CString.length_append, hstat, Option.isSome_some]
      simp only [exists_prop, and_true]
      constructor
      · intro hfits _
        omega
      · intro hfits
        have := hfits h
        omega

theorem loadLocal_isSome_iff {bytes : List UInt8} (h : bytes.length < maxHtmlSize) (s : State) :
  (loadLocal bytes s).isSome ↔ (localPath s.url.string).length ≤ 44
  := by
  have hbytes : (CString.ofBytes bytes).length < maxHtmlSize :=
    Nat.lt_of_le_of_lt (CString.length_ofBytes_le bytes) h
  have hmsg : (str "Loaded local file: ").length = 19 := rfl
  rw [loadLocal, StringBuffer.strcpy_eq_some hbytes, Option.bind_eq_bind, Option.bind_some]
  simp only [Option.bind_eq_bind, StringBuffer.strcat, StringBuffer.strcpy_bind_isSome_iff,
    CString.length_append, hmsg, Option.isSome_some]
  simp only [exists_prop, and_true]
  omega

theorem length_errorMessage_lt (page : List UInt8) :
  (errorMessage page).length < 128
  := by
  rw [errorMessage]
  split
  · apply Nat.lt_succ_of_le
    apply (CString.length_ofBytes_le _).trans
    apply List.length_take_le
  · decide

theorem loadNetwork_isSome (a : Answers) (s : State) :
  (loadNetwork a s).isSome
  := by
  have hstat : (str "Connecting to ").length = 14 ∧ (str "...").length = 3 := ⟨rfl, rfl⟩
  have hurl : (s.url.string.truncate 60).length ≤ 60 := by
    rw [CString.length_truncate]
    apply Nat.min_le_left
  rw [loadNetwork]
  simp only [Option.bind_eq_bind, StringBuffer.strcat, StringBuffer.strncat,
    StringBuffer.strcpy_bind_isSome_iff, CString.length_append, hstat, exists_prop]
  refine ⟨by omega, by omega, by omega, ?_⟩
  split
  case isTrue =>
    have herror := length_errorMessage_lt a.page
    have hpage : errorStart.length = 122 ∧ errorEnd.length = 66 := ⟨rfl, rfl⟩
    simp only [StringBuffer.strcpy_bind_isSome_iff, CString.length_append, hpage, exists_prop]
    have hsize : 1024 < maxHtmlSize := by decide
    exact ⟨herror, by omega, by omega, by omega, rfl⟩
  case isFalse hres =>
    have hfetched := a.fetched_lt
    have hsize : maxHtmlSize < 2 ^ 31 := by decide
    have hdigits : (intToStr a.fetched.toNat).length ≤ 10 := length_intToStr_le (by omega)
    have hhtml : (CString.ofBytes (a.page.take a.fetched.toNat)).length < maxHtmlSize := by
      apply Nat.lt_of_le_of_lt (CString.length_ofBytes_le _)
      apply Nat.lt_of_le_of_lt (List.length_take_le _ _)
      omega
    have hmsg : (str "Loaded ").length = 7 ∧ (str " bytes").length = 6 := ⟨rfl, rfl⟩
    simp only [StringBuffer.strcpy_bind_isSome_iff, CString.length_append, hmsg, exists_prop]
    exact ⟨hhtml, by omega, by decide, by omega, by omega, rfl⟩

@[simp]
theorem remember_url (s : State) :
  s.remember.url = s.url
  := by
  rw [State.remember]
  split <;> rfl

/-- Nothing but the messages about a download and about a local file can be too long. -/
theorem navigateTo_isSome_iff (a : Answers) (target : CString) (addHistory : Bool) (s : State) :
  (navigateTo a target addHistory s).isSome ↔ NavigateFits a target
  := by
  rw [navigateTo, NavigateFits]
  split
  case isTrue h => simp [h]
  case isFalse h =>
    obtain ⟨url, hurl⟩ := normUrl_eq_some target
    have hiff : (target.bytes ≠ [] → ∀ url', normUrl target = some url' →
        if isDownloadable url'.string then DownloadFits a url'.string else LocalFits a url'.string)
        ↔ if isDownloadable url.string then DownloadFits a url.string
          else LocalFits a url.string := by
      constructor
      · intro hall
        exact hall h url hurl
      · intro hfits _ url' hurl'
        rw [hurl] at hurl'
        cases hurl'
        exact hfits
    rw [hiff, hurl, Option.bind_eq_bind, Option.bind_some]
    split
    case isTrue => apply doDownload_isSome_iff
    case isFalse =>
      have hself : (StringBuffer.strncpyZero url.string 511 : Option (StringBuffer 512)) = some url :=
        url.strncpyZero_string
      rw [hself, Option.bind_some, LocalFits]
      have hkept : (if addHistory then { s with url }.remember else { s with url }).url = url := by
        split
        · exact remember_url _
        · rfl
      cases hfile : a.file with
      | none => simpa using loadNetwork_isSome a _
      | some bytes =>
          cases hlocal : isLocal url.string with
          | false => simpa using loadNetwork_isSome a _
          | true =>
              have hiff := loadLocal_isSome_iff (a.file_lt bytes hfile)
                (if addHistory then { s with url }.remember else { s with url })
              rw [hkept] at hiff
              simpa using hiff

/-- The address of a link is terminated unless it is relative to a base without a path that fills its
buffer. -/
theorem resolveUrl_isSome_iff (base href : StringBuffer 512) :
  (resolveUrl base.string href.string 512).isSome ↔ ResolveFits base.string href.string
  := by
  have hpos : 0 < 512 := by decide
  rw [resolveUrl, ResolveFits]
  by_cases hhref : href.string.bytes = []
  · rw [if_pos hhref, StringBuffer.strncpy_eq_some (Nat.le_refl _) base.length_lt]
    simp [hhref]
  rw [if_neg hhref]
  by_cases habs : isAbsolute href.string.bytes = true
  · rw [if_pos habs, StringBuffer.strncpy_eq_some (Nat.le_refl _) href.length_lt]
    simp [habs]
  rw [if_neg habs]
  by_cases hslashes : (ascii "//").isPrefixOf href.string.bytes = true
  · have hslash : (ascii "/").isPrefixOf href.string.bytes = true := by
      obtain ⟨l, hl⟩ := List.isPrefixOf_iff_prefix.mp hslashes
      rw [← hl]
      rfl
    have hscheme : (CString.ofBytes (ascii (if (ascii "http://").isPrefixOf base.string.bytes
        then "http:" else "https:"))).length < 512 - 1 := by
      split <;> decide
    rw [if_pos hslashes]
    have hsome := StringBuffer.strncpy_bind_strncat href.string hscheme
    simp only [Option.bind_eq_bind]
    rw [hsome]
    simp [hslash]
  rw [if_neg hslashes]
  by_cases hslash : (ascii "/").isPrefixOf href.string.bytes = true
  · rw [if_pos hslash]
    split
    · have hsome := StringBuffer.strncpyZero_bind_strncat base.string href.string
        (hostEnd base.string.bytes) hpos
      simp only [Option.bind_eq_bind]
      rw [hsome]
      simp [hslash]
    · rw [StringBuffer.strncpy_eq_some (Nat.le_refl _) href.length_lt]
      simp [hslash]
  rw [if_neg hslash]
  by_cases hbare : 47 ∉ base.string.bytes.drop (protoLen base.string.bytes)
  · have hhierarchy : 47 ∉ hierarchy base.string.bytes := hbare
    rw [if_pos hbare]
    by_cases hroom : base.string.length < 511
    · rw [StringBuffer.strncpy_eq_some (by decide) hroom, Option.bind_eq_bind, Option.bind_some,
        StringBuffer.strncat_rest, Option.bind_some, StringBuffer.strncat_rest]
      simp [hroom]
    · rw [StringBuffer.strncpy_eq_none hroom]
      simp [hhref, habs, hslash, hhierarchy, hroom]
  · have hhierarchy : 47 ∈ hierarchy base.string.bytes := not_not.mp hbare
    have hsome := StringBuffer.strncpyZero_bind_strncat base.string href.string
      (dirLen base.string.bytes) hpos
    rw [if_neg hbare]
    simp only [Option.bind_eq_bind]
    rw [hsome]
    simp [hhierarchy]

theorem addRest_isSome (target : StringBuffer 512) (s : CString) :
  (addRest target s).isSome
  := by
  rw [addRest, StringBuffer.strncat_rest]
  rfl

theorem addRest_bind_isSome {target : StringBuffer 512} {s : CString}
    {f : StringBuffer 512 → Option (StringBuffer 512)} (h : ∀ target, (f target).isSome) :
  ((addRest target s).bind f).isSome
  := by
  rw [addRest, StringBuffer.strncat_rest, Option.bind_some]
  apply h

theorem submitTarget_isSome_iff (url : StringBuffer 512) (inp : Input) :
  (submitTarget url.string inp).isSome
    ↔ (inp.formAction.string.bytes ≠ [] → ResolveFits url.string inp.formAction.string)
  := by
  have henc : (urlEncode inp.value.string 256).length < 256 := length_urlEncode_lt _ (by decide)
  have hsearch : searchUrl.length < 512 := by decide
  rw [submitTarget, StringBuffer.strcpy_eq_some henc, Option.bind_eq_bind, Option.bind_some,
    ← resolveUrl_isSome_iff]
  simp only [Option.bind_eq_bind]
  by_cases hempty : inp.formAction.string.bytes = []
  · rw [if_pos hempty, StringBuffer.strcpy_eq_some hsearch, Option.bind_some]
    simp [hempty, addRest_isSome]
  · rw [if_neg hempty]
    cases resolveUrl url.string inp.formAction.string 512 with
    | none => simp [hempty]
    | some target =>
        rw [Option.bind_some, Option.isSome_some, iff_true_right (fun _ => rfl)]
        split
        · rfl
        · apply addRest_bind_isSome
          intro target
          apply addRest_bind_isSome
          intro target
          apply addRest_bind_isSome
          intro target
          apply addRest_bind_isSome
          intro target
          split
          · apply addRest_isSome
          · rfl

theorem submitForm_isSome_iff (a : Answers) (inp : Input) (s : State) :
  (submitForm a inp s).isSome ↔ SubmitFits a s.url.string inp
  := by
  have htarget := submitTarget_isSome_iff s.url inp
  rw [submitForm, SubmitFits, ← htarget]
  cases submitTarget s.url.string inp with
  | none => simp
  | some target => simp [navigateTo_isSome_iff]

/-- The functions of the browser stay inside their buffers, and use no string without its terminating
zero, exactly when the strings that are put together without a bound fit. -/
theorem buffers_fit_iff
    (a : Answers) (s : State) (href : StringBuffer 512) (inp : Input) (url target : CString)
    (addHistory : Bool) :
  ((resolveUrl s.url.string href.string 512).isSome ↔ ResolveFits s.url.string href.string)
    ∧ ((submitForm a inp s).isSome ↔ SubmitFits a s.url.string inp)
    ∧ ((doDownload a url s).isSome ↔ DownloadFits a url)
    ∧ ((navigateTo a target addHistory s).isSome ↔ NavigateFits a target)
  := ⟨resolveUrl_isSome_iff s.url href, submitForm_isSome_iff a inp s, doDownload_isSome_iff a url s,
    navigateTo_isSome_iff a target addHistory s⟩

/-- A link to a file whose name has a hundred letters. -/
def longName : CString := .ofBytes (List.replicate 100 97)

theorem not_buffers_fit :
  ¬ ∀ a url s, (doDownload a url s).isSome
  := by
  intro h
  have hdownload := h ⟨none, 0, [], -1, by simp, by decide, by decide⟩ longName
    ⟨⟨.empty, by decide⟩, fun _ => ⟨.empty, by decide⟩, -1, 0, ⟨.empty, by decide⟩,
      ⟨.empty, by decide⟩, by decide⟩
  rw [doDownload_isSome_iff] at hdownload
  exact absurd (hdownload (by decide)).1 (by decide)

end Browser.Address
