import Woos.Browser.Bytes
import Woos.Text.Utf8

/-!
# The tables of a page

What the browser makes of a page: its boxes, links, inputs and images, and the state of the layout
that the tags change.  An entry is written to a table only within the table; where the code would
write behind its end there is no result.  Every tag and every word keeps the tables within their
sizes.
-/

namespace Browser

/-- `layout_item_type_t` -/
inductive ItemType where
  | text
  | header
  | hr
  | image
  | input
  | button

/-- `layout_box_t`; a field that is left as it was is `none`. -/
structure LayoutBox where
  type : ItemType
  x : Int
  y : Int
  w : Int
  h : Int
  text : Option (List UInt8)
  isBold : Option Bool
  isCode : Option Bool
  isHeader : Option Bool
  linkIdx : Option Int
  elemIdx : Option Int

/-- `browser_input_t` -/
structure Input where
  name : List UInt8
  value : List UInt8
  placeholder : List UInt8
  formAction : List UInt8
  formMethod : List UInt8

/-- `browser_image_t` -/
structure Image where
  url : List UInt8
  loaded : Int
  dispW : Int
  dispH : Int

/-- `MAX_BOXES` -/
def maxBoxes : Nat := 8192

/-- `MAX_LINKS` -/
def maxLinks : Nat := 512

/-- `MAX_IMAGES` -/
def maxImages : Nat := 16

/-- `MAX_INPUTS` -/
def maxInputs : Nat := 16

/-- The tables `g_boxes`, `g_links`, `g_inputs` and `g_images` with their sizes, `g_doc_height` and
`g_page_title`. -/
structure Page where
  boxes : List LayoutBox
  links : List (List UInt8)
  inputs : List Input
  images : Nat → Image
  numImages : Nat
  docHeight : Int
  title : List UInt8

/-- The variables of the layout. -/
structure Layout where
  curX : Int
  curY : Int
  lineH : Int
  inHidden : Nat
  inLink : Bool
  curLinkIdx : Int
  inBold : Bool
  inCode : Bool
  inHeader : Bool
  inList : Bool

/-- What the tags and the words change. -/
structure Doc where
  layout : Layout
  page : Page
  formAction : List UInt8

/-- What the parser is given: the width of the window, the address of the page, whether images are
loaded, the size at which an image is shown when it can be loaded, and whether a script that is
evaluated after others returns without having left the page. -/
structure Env where
  winW : Int
  url : List UInt8
  fetchImages : Bool
  image : List UInt8 → Option (Int × Int)
  script : List (List UInt8) → List UInt8 → Bool

namespace Page

/-- `g_boxes[g_num_boxes++] = b` -/
def pushBox (page : Page) (b : LayoutBox) : Option Page :=
  if page.boxes.length < maxBoxes then some { page with boxes := page.boxes ++ [b] } else none

/-- `g_links[g_num_links++] = url` -/
def pushLink (page : Page) (url : List UInt8) : Option Page :=
  if page.links.length < maxLinks then some { page with links := page.links ++ [url] } else none

/-- `g_inputs[g_num_inputs++] = input` -/
def pushInput (page : Page) (input : Input) : Option Page :=
  if page.inputs.length < maxInputs then some { page with inputs := page.inputs ++ [input] }
  else none

/-- `g_images[slot] = image` -/
def setImage (page : Page) (slot : Nat) (image : Image) : Option Page :=
  if slot < maxImages then
    some { page with images := fun k => if k = slot then image else page.images k }
  else
    none

/-- `if (height > g_doc_height) g_doc_height = height;` -/
def grow (page : Page) (height : Int) : Page :=
  { page with docHeight := if height > page.docHeight then height else page.docHeight }

/-- `load_image_for_slot` -/
def loadImageForSlot (env : Env) (page : Page) (slot : Nat) (url : List UInt8) : Option Page :=
  if url = [] then
    some page
  else
    match env.image url with
    | some (w, h) => page.setImage slot { url := url, loaded := 1, dispW := w, dispH := h }
    | none => page.setImage slot { url := url, loaded := -1, dispW := 0, dispH := 0 }

/-- No table is fuller than it can be. -/
structure Ok (page : Page) : Prop where
  boxes : page.boxes.length ≤ maxBoxes
  links : page.links.length ≤ maxLinks
  inputs : page.inputs.length ≤ maxInputs
  images : page.numImages ≤ maxImages

end Page

namespace Layout

/-- A new line when something is on the current one, which is `a` below it, and `b` more otherwise. -/
def breakLine (l : Layout) (a b x : Int) : Layout :=
  if l.curX > 20 then { l with curY := l.curY + l.lineH + a, curX := x }
  else { l with curY := l.curY + b }

/-- The left margin. -/
def margin (l : Layout) : Int := if l.inList then 36 else 20

/-- The next line when something of the width `w` does not fit in this one. -/
def wrapElement (l : Layout) (env : Env) (w : Int) : Layout :=
  if l.curX + w > env.winW - 36 then { l with curY := l.curY + 32, curX := 20 } else l

/-- The next line when a word of the width `w` does not fit in this one. -/
def wrapWord (l : Layout) (env : Env) (w : Int) : Layout :=
  if l.inHidden = 0 ∧ l.curX + w > env.winW - 36 then
    { l with curY := l.curY + l.lineH, curX := l.margin }
  else
    l

/-- The box of a word. -/
def wordBox (l : Layout) (word : List UInt8) (w : Int) : LayoutBox where
  type := if l.inHeader then .header else .text
  x := l.curX
  y := l.curY
  w := w
  h := l.lineH
  text := some (cstr word)
  isBold := some (l.inBold || l.inHeader)
  isCode := some l.inCode
  isHeader := some l.inHeader
  linkIdx := some (if l.inLink then l.curLinkIdx else -1)
  elemIdx := some (-1)

end Layout

/-- `utf8_charlen(word, length of word) * CHAR_W` -/
def wordWidth (word : List UInt8) : Int :=
  Utf8.charlen (fun i => word.getD i 0) 0 word.length * 8

namespace Doc

/-- A word that a space or a tag ends. -/
def addWord (d : Doc) (env : Env) (word : List UInt8) : Option Doc :=
  let ww := wordWidth word
  let l := d.layout.wrapWord env ww
  if l.inHidden = 0 ∧ d.page.boxes.length < maxBoxes then
    (d.page.pushBox (l.wordBox word ww)).map fun page =>
      { d with
        layout := { l with curX := l.curX + ww + 8 }
        page := page.grow (l.curY + l.lineH) }
  else
    some { d with layout := l }

/-- The word at the end of the page. -/
def addLastWord (d : Doc) (word : List UInt8) : Option Doc :=
  let l := d.layout
  if l.inHidden = 0 ∧ d.page.boxes.length < maxBoxes then
    (d.page.pushBox (l.wordBox word (wordWidth word))).map fun page =>
      { d with page := page.grow (l.curY + l.lineH) }
  else
    some d

/-- `hr` -/
def addRule (d : Doc) (env : Env) : Option Doc :=
  let l := d.layout.breakLine 6 0 20
  if d.page.boxes.length < maxBoxes then
    (d.page.pushBox
      { type := .hr, x := 20, y := l.curY, w := env.winW - 40, h := 1, text := none, isBold := none,
        isCode := none, isHeader := none, linkIdx := none, elemIdx := none }).map fun page =>
      { d with
        layout := { l with curY := l.curY + 10, curX := 20 }
        page := page.grow (l.curY + 10) }
  else
    some { d with layout := l }

/-- `li` -/
def addBullet (d : Doc) : Option Doc :=
  let l := { d.layout with curY := d.layout.curY + d.layout.lineH + 2, curX := 20 }
  if d.page.boxes.length < maxBoxes then
    (d.page.pushBox
      { type := .text, x := 20, y := l.curY, w := 12, h := l.lineH, text := some [0xE2, 0x80, 0xA2],
        isBold := none, isCode := none, isHeader := none, linkIdx := some (-1),
        elemIdx := some (-1) }).map fun page =>
      { d with layout := { l with curX := 36 }, page := page }
  else
    some { d with layout := { l with curX := 36 } }

/-- `a` -/
def addLink (d : Doc) (env : Env) (tag : List UInt8) : Option Doc :=
  match attrValue tag (ascii "href=") true (maxUrlLen - 1) with
  | some raw =>
    if d.page.links.length < maxLinks then
      (d.page.pushLink (resolveUrl env.url (htmlUnescapeUrl (maxUrlLen - 1) raw))).map fun page =>
        { d with
          layout := { d.layout with inLink := true, curLinkIdx := page.links.length - 1 }
          page := page }
    else
      some d
  | none => some d

/-- `form` -/
def openForm (d : Doc) (tag : List UInt8) : Doc :=
  { d with
    layout := d.layout.breakLine 6 6 20
    formAction := match attrValue tag (ascii "action=") true (maxUrlLen - 1) with
      | some raw => htmlUnescapeUrl (maxUrlLen - 1) raw
      | none => d.formAction }

/-- `input` of a type that is a button -/
def addButton (d : Doc) (env : Env) (type value : List UInt8) : Option Doc :=
  let l := d.layout.wrapElement env 80
  if d.page.boxes.length < maxBoxes then
    (d.page.pushBox
      { type := .button, x := l.curX, y := l.curY, w := 80, h := 24,
        text := some (if value ≠ [] then value
          else if type = ascii "image" then ascii "Search" else ascii "Submit"),
        isBold := none, isCode := none, isHeader := none, linkIdx := some (-1),
        elemIdx := some (if d.page.inputs.length > 0 then d.page.inputs.length - 1
          else -1) }).map fun page =>
      { d with
        layout := { l with curX := l.curX + 90 }
        page := page.grow (l.curY + 28) }
  else
    some { d with layout := l }

/-- `input` of a type that is a field -/
def addField (d : Doc) (env : Env) (name value placeholder : List UInt8) : Option Doc :=
  let l := d.layout.wrapElement env 220
  if d.page.inputs.length < maxInputs ∧ d.page.boxes.length < maxBoxes then
    (d.page.pushInput
      { name := name, value := value, placeholder := placeholder, formAction := d.formAction,
        formMethod := ascii "GET" }).bind fun page =>
      (page.pushBox
        { type := .input, x := l.curX, y := l.curY, w := 220, h := 24, text := none, isBold := none,
          isCode := none, isHeader := none, linkIdx := some (-1),
          elemIdx := some d.page.inputs.length }).map fun page =>
        { d with
          layout := { l with curX := l.curX + 230 }
          page := page.grow (l.curY + 28) }
  else
    some { d with layout := l }

/-- `input` -/
def addInput (d : Doc) (env : Env) (tag : List UInt8) : Option Doc :=
  let type := (attrValue tag (ascii "type=") false 23).getD (ascii "text")
  let name := (attrValue tag (ascii "name=") false 31).getD (ascii "q")
  let value := (attrValue tag (ascii "value=") false 127).getD []
  let placeholder := (attrValue tag (ascii "placeholder=") false 63).getD (ascii "Search...")
  if type = ascii "submit" ∨ type = ascii "button" ∨ type = ascii "image" then
    d.addButton env type value
  else if type ≠ ascii "hidden" then
    d.addField env name value placeholder
  else
    some d

/-- The slot of an image: the one that has its address, or a new one. -/
def imageSlot (page : Page) (env : Env) (url : List UInt8) : Option (Page × Option Nat) :=
  match (List.range page.numImages).find? (fun k => (page.images k).url == url) with
  | some k => some (page, some k)
  | none =>
    if page.numImages < maxImages then
      let slot := page.numImages
      let page := { page with numImages := slot + 1 }
      if env.fetchImages ∧ slot < 8 then
        (page.loadImageForSlot env slot url).map fun page => (page, some slot)
      else
        some (page, some slot)
    else
      some (page, none)

/-- The box of the image in a slot. -/
def showImage (d : Doc) (slot : Nat) : Option Doc :=
  if (d.page.images slot).loaded = 1 ∧ d.page.boxes.length < maxBoxes then
    let l := d.layout.breakLine 6 0 20
    let image := d.page.images slot
    let w := if image.dispW > 0 then image.dispW else 140
    let h := if image.dispH > 0 then image.dispH else 32
    (d.page.pushBox
      { type := .image, x := l.curX, y := l.curY, w := w, h := h, text := none, isBold := none,
        isCode := none, isHeader := none, linkIdx := some (if l.inLink then l.curLinkIdx else -1),
        elemIdx := some slot }).map fun page =>
      { d with
        layout := { l with curY := l.curY + h + 8, curX := 20 }
        page := page.grow (l.curY + h + 8) }
  else
    some d

/-- `img` -/
def addImage (d : Doc) (env : Env) (tag : List UInt8) : Option Doc :=
  match attrValue tag (ascii "src=") true (maxUrlLen - 1) with
  | some raw =>
    if d.layout.inHidden = 0 then
      (imageSlot d.page env
        (resolveUrl env.url (htmlUnescapeUrl (maxUrlLen - 1) raw))).bind fun (page, slot) =>
        match slot with
        | some slot => showImage { d with page := page } slot
        | none => some { d with page := page }
    else
      some d
  | none => some d

/-- One of the names matches the tag. -/
def matchesAny (tag : List UInt8) (names : List String) : Bool :=
  names.any fun name => tagMatch tag (ascii name)

/-- What a tag does to the layout and the tables. -/
def tag (d : Doc) (env : Env) (tag : List UInt8) : Option Doc :=
  let l := d.layout
  if tag.getD 0 0 = 104 ∧ tag.getD 1 0 ≥ 49 ∧ tag.getD 1 0 ≤ 54 then
    some { d with layout := { l.breakLine 8 8 20 with inHeader := true, lineH := 24 } }
  else if tag.getD 0 0 = 47 ∧ tag.getD 1 0 = 104 ∧ tag.getD 2 0 ≥ 49 ∧ tag.getD 2 0 ≤ 54 then
    some { d with
      layout := { l with curY := l.curY + l.lineH + 6, curX := 20, inHeader := false, lineH := 18 } }
  else if matchesAny tag
      ["p", "div", "section", "article", "/p", "/div", "/section", "/article", "/span"] then
    let l := if tag.getD 0 0 = 47 ∧ l.inHidden > 0 then { l with inHidden := l.inHidden - 1 } else l
    some { d with layout := l.breakLine 4 4 l.margin }
  else if matchesAny tag ["br"] then
    some { d with layout := { l with curY := l.curY + l.lineH, curX := l.margin } }
  else if matchesAny tag ["hr"] then
    d.addRule env
  else if matchesAny tag ["ul", "ol"] then
    some { d with layout := { l.breakLine 4 0 36 with inList := true } }
  else if matchesAny tag ["/ul", "/ol"] then
    some { d with layout := { l.breakLine 4 0 20 with inList := false } }
  else if matchesAny tag ["li"] then
    d.addBullet
  else if matchesAny tag ["b", "strong"] then
    some { d with layout := { l with inBold := true } }
  else if matchesAny tag ["/b", "/strong"] then
    some { d with layout := { l with inBold := false } }
  else if matchesAny tag ["code", "pre"] then
    some { d with layout := { l with inCode := true } }
  else if matchesAny tag ["/code", "/pre"] then
    some { d with layout := { l with inCode := false } }
  else if matchesAny tag ["a"] then
    d.addLink env tag
  else if matchesAny tag ["/a"] then
    some { d with layout := { l with inLink := false, curLinkIdx := -1 } }
  else if matchesAny tag ["form"] then
    some (d.openForm tag)
  else if matchesAny tag ["/form"] then
    some { d with layout := l.breakLine 8 8 20 }
  else if matchesAny tag ["input"] then
    d.addInput env tag
  else if matchesAny tag ["img"] then
    d.addImage env tag
  else
    some d

end Doc

/-! ### The tables stay within their sizes -/

namespace Page

theorem Ok.pushBox {page : Page} (h : page.Ok) (hlt : page.boxes.length < maxBoxes)
    (b : LayoutBox) :
  ∃ page', page.pushBox b = some page' ∧ page'.Ok
  := by
  refine ⟨_, if_pos hlt, ?_, h.links, h.inputs, h.images⟩
  rw [List.length_append]
  exact hlt

theorem Ok.grow {page : Page} (h : page.Ok) (height : Int) :
  (page.grow height).Ok
  := ⟨h.boxes, h.links, h.inputs, h.images⟩

theorem Ok.loadImageForSlot {page : Page} (h : page.Ok) (env : Env) {slot : Nat}
    (hslot : slot < maxImages) (url : List UInt8) :
  ∃ page', page.loadImageForSlot env slot url = some page' ∧ page'.Ok
  := by
  rw [Page.loadImageForSlot]
  split
  · exact ⟨page, rfl, h⟩
  · split
    · exact ⟨_, if_pos hslot, h.boxes, h.links, h.inputs, h.images⟩
    · exact ⟨_, if_pos hslot, h.boxes, h.links, h.inputs, h.images⟩

end Page

namespace Doc

/-- There is a result, whose tables are within their sizes. -/
def Safe (r : Option Doc) : Prop := ∃ d, r = some d ∧ d.page.Ok

/-- A box is added when there is room for it. -/
theorem safe_pushBox {page : Page} (h : page.Ok) {b : LayoutBox} {f : Page → Doc}
    (hlt : page.boxes.length < maxBoxes) (hf : ∀ page', page'.Ok → (f page').page.Ok) :
  Safe ((page.pushBox b).map f)
  := by
  obtain ⟨page', hpage', hok⟩ := h.pushBox hlt b
  rw [hpage']
  exact ⟨_, rfl, hf page' hok⟩

variable {d : Doc}

theorem addWord_safe (h : d.page.Ok) (env : Env) (word : List UInt8) :
  Safe (d.addWord env word)
  := by
  rw [addWord]
  split
  · rename_i hcond
    apply safe_pushBox h hcond.2
    intro page hpage
    apply hpage.grow
  · exact ⟨_, rfl, h⟩

theorem addLastWord_safe (h : d.page.Ok) (word : List UInt8) :
  Safe (d.addLastWord word)
  := by
  rw [addLastWord]
  split
  · rename_i hcond
    apply safe_pushBox h hcond.2
    intro page hpage
    apply hpage.grow
  · exact ⟨_, rfl, h⟩

theorem addRule_safe (h : d.page.Ok) (env : Env) :
  Safe (d.addRule env)
  := by
  rw [addRule]
  split
  · apply safe_pushBox h ‹_›
    intro page hpage
    apply hpage.grow
  · exact ⟨_, rfl, h⟩

theorem addBullet_safe (h : d.page.Ok) :
  Safe d.addBullet
  := by
  rw [addBullet]
  split
  · apply safe_pushBox h ‹_›
    intro page hpage
    exact hpage
  · exact ⟨_, rfl, h⟩

theorem addLink_safe (h : d.page.Ok) (env : Env) (tag : List UInt8) :
  Safe (d.addLink env tag)
  := by
  rw [addLink]
  split
  · split
    · rename_i hlt
      rw [Page.pushLink, if_pos hlt]
      refine ⟨_, rfl, h.boxes, ?_, h.inputs, h.images⟩
      rw [List.length_append]
      exact hlt
    · exact ⟨_, rfl, h⟩
  · exact ⟨_, rfl, h⟩

theorem addButton_safe (h : d.page.Ok) (env : Env) (type value : List UInt8) :
  Safe (d.addButton env type value)
  := by
  rw [addButton]
  split
  · apply safe_pushBox h ‹_›
    intro page hpage
    apply hpage.grow
  · exact ⟨_, rfl, h⟩

theorem addField_safe (h : d.page.Ok) (env : Env) (name value placeholder : List UInt8) :
  Safe (d.addField env name value placeholder)
  := by
  rw [addField]
  split
  · rename_i hcond
    rw [Page.pushInput, if_pos hcond.1, Option.bind_some]
    apply safe_pushBox
    · refine ⟨h.boxes, h.links, ?_, h.images⟩
      rw [List.length_append]
      exact hcond.1
    · exact hcond.2
    · intro page hpage
      apply hpage.grow
  · exact ⟨_, rfl, h⟩

theorem addInput_safe (h : d.page.Ok) (env : Env) (tag : List UInt8) :
  Safe (d.addInput env tag)
  := by
  rw [addInput]
  split
  · apply addButton_safe h
  · split
    · apply addField_safe h
    · exact ⟨_, rfl, h⟩

/-- The slot of an image is within the table. -/
theorem imageSlot_safe {page : Page} (h : page.Ok) (env : Env) (url : List UInt8) :
  ∃ page' slot, imageSlot page env url = some (page', slot) ∧ page'.Ok
  := by
  rw [imageSlot]
  split
  · exact ⟨_, _, rfl, h⟩
  · split
    · rename_i hlt
      have hnew : Page.Ok { page with numImages := page.numImages + 1 } :=
        ⟨h.boxes, h.links, h.inputs, hlt⟩
      dsimp only
      split
      · obtain ⟨page', hpage', hok⟩ := hnew.loadImageForSlot env hlt url
        rw [hpage']
        exact ⟨_, _, rfl, hok⟩
      · exact ⟨_, _, rfl, hnew⟩
    · exact ⟨_, _, rfl, h⟩

theorem showImage_safe (h : d.page.Ok) (slot : Nat) :
  Safe (d.showImage slot)
  := by
  rw [showImage]
  split
  · rename_i hcond
    apply safe_pushBox h hcond.2
    intro page hpage
    apply hpage.grow
  · exact ⟨_, rfl, h⟩

theorem addImage_safe (h : d.page.Ok) (env : Env) (tag : List UInt8) :
  Safe (d.addImage env tag)
  := by
  rw [addImage]
  split
  · split
    · rename_i raw _ _
      obtain ⟨page, slot, hpage, hok⟩ := imageSlot_safe h env
        (resolveUrl env.url (htmlUnescapeUrl (maxUrlLen - 1) raw))
      rw [hpage, Option.bind_some]
      cases slot with
      | none => exact ⟨_, rfl, hok⟩
      | some slot => exact showImage_safe hok slot
    · exact ⟨_, rfl, h⟩
  · exact ⟨_, rfl, h⟩

theorem safe_ite {c : Prop} [Decidable c] {a b : Option Doc} (ha : Safe a) (hb : Safe b) :
  Safe (if c then a else b)
  := by
  split
  · exact ha
  · exact hb

/-- A tag writes to the tables within their sizes. -/
theorem tag_safe (h : d.page.Ok) (env : Env) (t : List UInt8) :
  Safe (d.tag env t)
  := by
  have hpure (layout : Layout) : Safe (some { d with layout := layout }) := ⟨_, rfl, h⟩
  have hform : Safe (some (d.openForm t)) := ⟨_, rfl, h⟩
  have hsame : Safe (some d) := ⟨_, rfl, h⟩
  apply safe_ite (hpure _)
  apply safe_ite (hpure _)
  apply safe_ite (hpure _)
  apply safe_ite (hpure _)
  apply safe_ite (addRule_safe h env)
  apply safe_ite (hpure _)
  apply safe_ite (hpure _)
  apply safe_ite (addBullet_safe h)
  apply safe_ite (hpure _)
  apply safe_ite (hpure _)
  apply safe_ite (hpure _)
  apply safe_ite (hpure _)
  apply safe_ite (addLink_safe h env t)
  apply safe_ite (hpure _)
  apply safe_ite hform
  apply safe_ite (hpure _)
  apply safe_ite (addInput_safe h env t)
  apply safe_ite (addImage_safe h env t) hsame

end Doc

end Browser
