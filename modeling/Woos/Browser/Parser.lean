import Woos.Browser.Page

/-!
# The parser of the browser

The loop that goes through the text of a page once and fills the tables: scripts, styles, comments,
tags, the title, entities, words.  Every read of the text and every write to a buffer is checked, and
a step has no result when one is out of bounds.
-/

namespace Browser

/-- The sizes of `script_buf`, `tag_buf`, `word_buf` and `title_buf`. -/
def scriptSize : Nat := 65536

def tagSize : Nat := 256

def wordSize : Nat := 128

def titleSize : Nat := 256

/-- `buf[len++] = c` in a buffer of `size` bytes -/
def put (size : Nat) (buf : List UInt8) (c : UInt8) : Option (List UInt8) :=
  if buf.length < size then some (buf ++ [c]) else none

/-- The bytes of `s`, one after the other. -/
def putAll (size : Nat) (buf : List UInt8) : (s : List UInt8) → Option (List UInt8)
  | [] => some buf
  | c :: s => (put size buf c).bind fun buf => putAll size buf s

/-- `buf[len] = '\0'` -/
def terminate (size : Nat) (buf : List UInt8) : Option (List UInt8) :=
  if buf.length < size then some buf else none

/-- The variables of the parser and the scripts that have been evaluated; the length of a buffer is
the length of its list. -/
structure Parser where
  p : Nat
  inScript : Bool
  inStyle : Bool
  inNoscript : Bool
  inTag : Bool
  inTitle : Bool
  tagQuote : UInt8
  scriptBuf : List UInt8
  tagBuf : List UInt8
  wordBuf : List UInt8
  titleBuf : List UInt8
  scripts : List (List UInt8)
  doc : Doc

/-- A round of the loop ends with the next one, with the end of the loop, or with a script that does
not come back to it. -/
inductive Step where
  | next (s : Parser)
  | stop (s : Parser)
  | script (code : List UInt8)

/-! ### Scripts and styles -/

/-- The words that `is_safe_script` rejects. -/
def es6Words : List String :=
  ["let ", "\nlet ", ";let ", "let\t", "\x7blet ", "(let ", "const ", "\nconst ", ";const ",
    "const\t", "\x7bconst ", "(const ", "class ", "\nclass ", ";class ", "class\x7b", "=>", " of ",
    "?.", "??", "async ", "\nasync ", "await ", "import ", "\nimport ", "export ", "\nexport ", "..."]

/-- `is_safe_script` -/
def isSafeScript (code : List UInt8) : Bool :=
  let code := code.dropWhile ([32, 9, 13, 10].contains ·)
  if code = [] then false
  else if code.head? = some 123 ∨ contains code (ascii "\"@context\"") then false
  else if code.length > 2048 then false
  else if code.contains 96 then false
  else !es6Words.any fun word => contains code (ascii word)

/-- The text at `p` closes the element `name`. -/
def closesAt (t : List UInt8) (p : Nat) (name : List UInt8) : Option Bool :=
  (matchAt id t p (ascii "</")).bind fun opens =>
    if opens then
      (matchAt lower t (p + 2) name).bind fun same =>
        if same then
          (get t (p + 2 + name.length)).map fun next => [62, 32, 9, 13, 10, 47].contains next
        else
          some false
    else
      some false

/-- Behind the tag that closes the element `name`. -/
def afterClose (t : List UInt8) (p : Nat) (name : List UInt8) : Option Nat :=
  (findByte t p 62).map fun
    | some q => q + 1
    | none => p + 2 + name.length

/-- In a script. -/
def stepScript (env : Env) (t : List UInt8) (s : Parser) : Option Step :=
  (closesAt t s.p (ascii "script")).bind fun closes =>
    if closes then
      (if s.scriptBuf.length > 0 then terminate scriptSize s.scriptBuf
        else some s.scriptBuf).bind fun code =>
        let evaluates := code.length > 0 ∧ isSafeScript code
        if evaluates ∧ env.script s.scripts code = false then
          some (.script code)
        else
          (afterClose t s.p (ascii "script")).map fun p =>
            .next { s with
              inScript := false
              scriptBuf := []
              scripts := if evaluates then s.scripts ++ [code] else s.scripts
              p := p }
    else
      (get t s.p).bind fun c =>
        (if s.scriptBuf.length + 1 < scriptSize then put scriptSize s.scriptBuf c
          else some s.scriptBuf).map fun buf =>
          .next { s with scriptBuf := buf, p := s.p + 1 }

/-- In a style or in a `noscript`, which `leave` leaves. -/
def stepRaw (t : List UInt8) (s : Parser) (name : List UInt8) (leave : Parser → Nat → Parser) :
  Option Step :=
  (closesAt t s.p name).bind fun closes =>
    if closes then
      (afterClose t s.p name).map fun p => .next (leave s p)
    else
      some (.next { s with p := s.p + 1 })

/-! ### Tags -/

/-- The word that has been read is added to the page. -/
def flushWord (env : Env) (s : Parser) : Option Parser :=
  if s.wordBuf.length > 0 then
    (terminate wordSize s.wordBuf).bind fun word =>
      (s.doc.addWord env word).map fun doc => { s with doc := doc, wordBuf := [] }
  else
    some s

/-- `<` -/
def stepOpen (env : Env) (s : Parser) : Option Step :=
  (flushWord env s).map fun s =>
    .next { s with inTag := true, tagQuote := 0, tagBuf := [], p := s.p + 1 }

/-- The tag hides what follows. -/
def hides (tag : List UInt8) : Bool :=
  ["display:none", "display: none", "visibility:hidden", "visibility: hidden"].any fun style =>
    contains tag (ascii style)

/-- The document with one more element that is hidden. -/
def hide (d : Doc) : Doc := { d with layout := { d.layout with inHidden := d.layout.inHidden + 1 } }

/-- `>` at the end of a tag -/
def closeTag (env : Env) (s : Parser) : Option Parser :=
  (terminate tagSize s.tagBuf).bind fun tag =>
    let selfClosing := tag.getLast? == some 47
    let doc := if !selfClosing && hides tag then hide s.doc else s.doc
    let s := { s with inTag := false, doc := doc }
    if !selfClosing && tagMatch tag (ascii "script") then
      if contains tag (ascii "json") || contains tag (ascii "template") then
        some { s with inScript := false }
      else
        some { s with inScript := true, scriptBuf := [] }
    else if !selfClosing && tagMatch tag (ascii "noscript") then
      some { s with inNoscript := true }
    else if !selfClosing && tagMatch tag (ascii "style") then
      some { s with inStyle := true }
    else if tagMatch tag (ascii "title") then
      some { s with inTitle := true, titleBuf := [] }
    else if tagMatch tag (ascii "/title") then
      (terminate titleSize s.titleBuf).map fun title =>
        { s with
          inTitle := false
          doc := { doc with page := { doc.page with
            title := (ascii "Web Browser: " ++ cstr title).take 255 } } }
    else
      (doc.tag env tag).map fun doc => { s with doc := doc }

/-- In a tag. -/
def stepTag (env : Env) (s : Parser) (c : UInt8) : Option Step :=
  let quote :=
    if s.tagQuote = 0 ∧ (c = 34 ∨ c = 39) then c
    else if s.tagQuote ≠ 0 ∧ c = s.tagQuote then 0
    else s.tagQuote
  if c = 62 ∧ quote = 0 then
    (closeTag env { s with tagQuote := quote }).map fun s => .next { s with p := s.p + 1 }
  else
    (if s.tagBuf.length + 1 < tagSize then put tagSize s.tagBuf c else some s.tagBuf).map fun buf =>
      .next { s with tagQuote := quote, tagBuf := buf, p := s.p + 1 }

/-! ### Entities -/

/-- The code point with one more hexadecimal digit; another byte counts as a zero. -/
def pushHex (cp : UInt32) (c : UInt8) : UInt32 :=
  if c ≥ 48 ∧ c ≤ 57 then (cp <<< 4) ||| (c - 48).toUInt32
  else if c ≥ 97 ∧ c ≤ 102 then (cp <<< 4) ||| (c - 97 + 10).toUInt32
  else if c ≥ 65 ∧ c ≤ 70 then (cp <<< 4) ||| (c - 65 + 10).toUInt32
  else cp <<< 4

/-- The code point with one more decimal digit; another byte is ignored. -/
def pushDecimal (cp : UInt32) (c : UInt8) : UInt32 :=
  if c ≥ 48 ∧ c ≤ 57 then cp * 10 + (c - 48).toUInt32 else cp

/-- A character that is given by its number, and the index behind it. -/
def numericEntity (t : List UInt8) (p : Nat) : Option (Option (UInt32 × Nat)) :=
  (get t (p + 1)).bind fun c =>
    if c = 35 then
      (findByte t p 59).bind fun
        | some semi =>
          if semi - p < 12 then
            (get t (p + 2)).map fun x =>
              if x = 120 ∨ x = 88 then
                some (((t.drop (p + 3)).take (semi - (p + 3))).foldl pushHex 0, semi + 1)
              else
                some (((t.drop (p + 2)).take (semi - (p + 2))).foldl pushDecimal 0, semi + 1)
          else
            some none
        | none => some none
    else
      some none

/-- The entities that have a name, and what stands for them. -/
def entities : List (String × UInt8) :=
  [("&nbsp;", 32), ("&amp;", 38), ("&lt;", 60), ("&gt;", 62), ("&quot;", 34), ("&apos;", 39),
    ("&#39;", 39), ("&ndash;", 45), ("&mdash;", 45), ("&bull;", 42), ("&hellip;", 46),
    ("&copy;", 99)]

/-- The first entity of the list at `p`: its length, and what stands for it. -/
def namedEntity (t : List UInt8) (p : Nat) :
  (list : List (String × UInt8)) → Option (Option (Nat × UInt8))
  | [] => some none
  | (name, c) :: list => (matchAt id t p (ascii name)).bind fun same =>
    if same then some (some ((ascii name).length, c)) else namedEntity t p list

/-- In the title. -/
def stepTitle (t : List UInt8) (s : Parser) (c : UInt8) : Option Step :=
  (if c = 38 then numericEntity t s.p else some none).bind fun
    | some (cp, p) =>
      let enc := Utf8.encodeCodepoint cp
      (if enc.length > 0 ∧ s.titleBuf.length + enc.length < titleSize - 1 then
          putAll titleSize s.titleBuf enc
        else some s.titleBuf).map fun buf => .next { s with titleBuf := buf, p := p }
    | none =>
      (if s.titleBuf.length + 1 < titleSize then put titleSize s.titleBuf c
        else some s.titleBuf).map fun buf => .next { s with titleBuf := buf, p := s.p + 1 }

/-! ### Words -/

/-- The bytes of the character that begins with `c`. -/
def charLen (c : UInt8) : Nat :=
  if c ≥ 0xC0 ∧ c ≤ 0xDF then 2
  else if c ≥ 0xE0 ∧ c ≤ 0xEF then 3
  else if c ≥ 0xF0 ∧ c ≤ 0xF7 then 4
  else 1

/-- `for (k = 0; k < clen && *p; k++)`, where `left` is `clen - k`: the bytes of a character are
copied, and the pointer stays at the last of them. -/
def copyChar (t : List UInt8) : (left p : Nat) → (word : List UInt8) → Option (Nat × List UInt8)
  | 0, p, word => some (p, word)
  | left + 1, p, word => (get t p).bind fun c =>
    if c ≠ 0 then
      (put wordSize word c).bind fun word =>
        copyChar t left (if left > 0 then p + 1 else p) word
    else
      some (p, word)

/-- A byte of a word, or a space behind one. -/
def stepWord (env : Env) (t : List UInt8) (s : Parser) (c : UInt8) : Option Step :=
  if c = 32 ∨ c = 9 ∨ c = 13 ∨ c = 10 then
    (flushWord env s).map fun s => .next { s with p := s.p + 1 }
  else if s.wordBuf.length + charLen c < 127 then
    (copyChar t (charLen c) s.p s.wordBuf).map fun (p, word) =>
      .next { s with wordBuf := word, p := p + 1 }
  else
    some (.next { s with p := s.p + 1 })

/-- In the text. -/
def stepText (env : Env) (t : List UInt8) (s : Parser) (c : UInt8) : Option Step :=
  if c = 38 then
    (numericEntity t s.p).bind fun
      | some (cp, p) =>
        let enc := Utf8.encodeCodepoint cp
        (if enc.length > 0 ∧ s.wordBuf.length + enc.length < 127 then
            putAll wordSize s.wordBuf enc
          else some s.wordBuf).map fun word => .next { s with wordBuf := word, p := p }
      | none =>
        (namedEntity t s.p entities).bind fun
          | some (len, c) =>
            (if s.wordBuf.length + 1 < 127 then put wordSize s.wordBuf c
              else some s.wordBuf).map fun word =>
              .next { s with wordBuf := word, p := s.p + len }
          | none => stepWord env t s c
  else
    stepWord env t s c

/-! ### The loop -/

/-- `<!--` at `p`: the comment is skipped, or the rest of the page when it does not end. -/
def stepComment (t : List UInt8) (s : Parser) : Option Step :=
  (findString t (s.p + 4) (ascii "-->")).map fun
    | some q => .next { s with p := q + 3 }
    | none => .stop s

/-- A round of the loop. -/
def step (env : Env) (t : List UInt8) (s : Parser) : Option Step :=
  if s.inScript then
    stepScript env t s
  else if s.inStyle then
    stepRaw t s (ascii "style") fun s p => { s with inStyle := false, p := p }
  else if s.inNoscript then
    stepRaw t s (ascii "noscript") fun s p => { s with inNoscript := false, p := p }
  else
    (matchAt id t s.p (ascii "<!--")).bind fun comment =>
      if comment then
        stepComment t s
      else
        (get t s.p).bind fun c =>
          if c = 60 then stepOpen env s
          else if s.inTag then stepTag env s c
          else if s.inTitle then stepTitle t s c
          else stepText env t s c

/-- How a computation ends: with a result, with an access out of bounds, with a script that does not
come back, or not within the rounds that it is given. -/
inductive Outcome (α : Type) where
  | done (a : α)
  | outOfBounds
  | script (code : List UInt8)
  | running

/-- `while (*p != '\0')`, for at most `fuel` rounds -/
def loop (env : Env) (t : List UInt8) : (fuel : Nat) → Parser → Outcome Parser
  | 0, _ => .running
  | fuel + 1, s =>
    match get t s.p with
    | none => .outOfBounds
    | some c =>
      if c = 0 then
        .done s
      else
        match step env t s with
        | none => .outOfBounds
        | some (.next s) => loop env t fuel s
        | some (.stop s) => .done s
        | some (.script code) => .script code

/-- What follows the loop. -/
def finish (s : Parser) : Option Page :=
  (if s.wordBuf.length > 0 then
      (terminate wordSize s.wordBuf).bind fun word => s.doc.addLastWord word
    else some s.doc).bind fun doc =>
    if doc.page.boxes.length = 0 then
      (doc.page.pushBox
        { type := .text, x := 20, y := 20, w := 120, h := 18, text := some (ascii "Empty page."),
          isBold := none, isCode := none, isHeader := none, linkIdx := some (-1),
          elemIdx := some (-1) }).map fun page => { page with docHeight := 40 }
    else
      some doc.page

/-- The tables when the parser begins. -/
def emptyPage (env : Env) (page : Page) : Page :=
  { page with
    boxes := []
    links := []
    inputs := []
    images := if env.fetchImages then
        fun k => if k < page.numImages then { page.images k with loaded := 0 } else page.images k
      else page.images
    numImages := if env.fetchImages then 0 else page.numImages
    docHeight := 0 }

/-- The variables when the parser begins. -/
def start (env : Env) (page : Page) : Parser where
  p := 0
  inScript := false
  inStyle := false
  inNoscript := false
  inTag := false
  inTitle := false
  tagQuote := 0
  scriptBuf := []
  tagBuf := []
  wordBuf := []
  titleBuf := []
  scripts := []
  doc :=
    { layout :=
        { curX := 20, curY := 16, lineH := 18, inHidden := 0, inLink := false, curLinkIdx := -1,
          inBold := false, inCode := false, inHeader := false, inList := false }
      page := emptyPage env page
      formAction := [] }

/-- `parse_html_to_boxes` -/
def parseHtmlToBoxes (env : Env) (t : List UInt8) (page : Page) (fuel : Nat) : Outcome Page :=
  match loop env t fuel (start env page) with
  | .done s =>
    match finish s with
    | some page => .done page
    | none => .outOfBounds
  | .outOfBounds => .outOfBounds
  | .script code => .script code
  | .running => .running

end Browser
