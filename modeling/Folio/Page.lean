/-
Pages: what a paginator shows one of at a time. A text page is laid out as an
embed when it is shown, of an embed page a copy is shown.
-/
import Folio.Embed
import Folio.Text.Pack
import Folio.Text.Shorten
import Folio.Text.Wrap

namespace Folio

/-- A page of text, with a line before and after its content. -/
structure TextPage where
  content : String
  before : String
  after : String
  /-- A title, never empty. -/
  title : Option String
deriving DecidableEq, Repr

/-- The text that is shown: the content between its two lines. -/
def TextPage.description (page : TextPage) : String :=
  page.before ++ "\n" ++ page.content ++ "\n" ++ page.after

/-- A page. -/
inductive Page where
  | text (page : TextPage)
  | embed (embed : Embed)
deriving Inhabited

/-- A page as a caller describes it. -/
inductive PageDraft where
  | text (content before after title : String)
  | embed (data : Value)

namespace Page

/-- A page of text; an empty title is none. -/
def ofText (content before after title : String) : Page :=
  .text ⟨content, before, after, if title = "" then none else some title⟩

/-- The short label of the page with the given index, counted from one. -/
def defaultSummary (index : Nat) : String := "Page " ++ toString (index + 1)

/-- A short label: the title, of whatever type it is, else the start of the
text, else `fallback`. Only a description that is a text has a start. -/
def summaryOr (fallback : String) : Page → Except Fault Value
  | .text page =>
    .ok (.text (match page.title with
      | some title => title
      | none => String.ofList (Text.shorten Text.summaryWidth page.content.toList)))
  | .embed e =>
    if e.title.isGiven then .ok e.title
    else if e.description.isGiven then
      match e.description with
      | .text s => .ok (.text (String.ofList (Text.shorten Text.summaryWidth s.toList)))
      | _ => .error .missing
    else .ok (.text fallback)

/-- A short label of the page at an index. -/
def summary (page : Page) (index : Nat) : Except Fault Value := page.summaryOr (defaultSummary index)

/-- The page as an embed. -/
def toEmbed : Page → Except Fault Embed
  | .text page => do
    let e ← Embed.empty.withDescription page.description
    match page.title with
    | some title => e.withTitle title
    | none => .ok e
  | .embed e => Embed.ofFields e.fields

/-- The page that a caller describes. -/
def ofDraft : PageDraft → Except Fault Page
  | .text content before after title => .ok (ofText content before after title)
  | .embed data => (Embed.ofValue data).map .embed

/-! ### Cutting content into pages -/

/-- The size of a page unless another is asked for. -/
def defaultSize : Nat := 4000

/-- Text wrapped to a width, which has to be a positive integer. -/
def wrap (width : Number) (text : String) : Except Fault (List String) :=
  match width.toNat? with
  | some (n + 1) => .ok ((Text.wrap (n + 1) (Nat.succ_pos n) text.toList).map String.ofList)
  | _ => .error (.badWidth width.text)

/-- Text wrapped to a width of any type, which has to be a number. -/
def wrapTo (width : Value) (text : String) : Except Fault (List String) :=
  match width with
  | .number width => wrap width text
  | _ => .error (.badWidth width.display)

/-- The limit that a page size sets on lengths, which are whole numbers. -/
def limit : Number → Text.Limit
  | .nan | .infinite false => none
  | .infinite true => some (-1)
  | .finite size => some size.floor

/-- Entries packed into pages of a size. -/
def pack (size : Number) (entries : List String) : List String :=
  (Text.pack (limit size) (entries.map String.toList)).map String.ofList

/-- Word-wrapped pages of a text. The lines before and after count towards the size. -/
def ofContent (size : Number) (before after content : String) : Except Fault (List Page) :=
  (wrap (size - ((before.length + after.length : Nat) : Number)) content).map fun chunks =>
    chunks.map fun chunk => ofText chunk before after ""

/-- Pages that keep each entry whole. -/
def ofEntries (size : Number) (before after : String) (entries : List String) : List Page :=
  (pack size entries).map fun body => ofText body before after ""

end Page

end Folio
