/-
Payloads: what is sent to the chat service. A page goes out with its controls,
an edit may touch the controls alone, and a notice is seen by one user only.
-/
import Folio.Component

namespace Folio

/-- The content of a message or of a change to one. -/
inductive Payload where
  | page (embed : Embed) (rows : ComponentRows)
  | controls (rows : ComponentRows)
  | notice (text : String)

namespace Layout

/-- What the footer of a page says. -/
def footer (index count : Nat) : String := "Page " ++ toString (index + 1) ++ "/" ++ toString count

/-- The embed of a page, with what the configuration adds. -/
def pageEmbed (l : Layout) (page : Page) : Except Fault Embed :=
  page.toEmbed.map fun e =>
    ((e.withTitleByDefault l.config.defaultTitle).withColorByDefault l.config.defaultColor).withFooter
      (footer l.index l.pages.length)

/-- The page at the layout's index with its controls, disabled if `off`. -/
def payload (l : Layout) (off : Bool) : Except Fault Payload := do
  match l.pages[l.index]? with
  | none => .error (.noPage l.index l.pages.length)
  | some page => return .page (← l.pageEmbed page) (← l.render off)

/-- The page at an index that need not be a whole number, with its controls. -/
def payloadAt (session : String) (pages : List Page) (index : Number) (config : Config) (off : Value) :
    Except Fault Payload := do
  match index.toNat? with
  | none => .error (.noPage index pages.length)
  | some i =>
    match pages[i]? with
    | none => .error (.noPage index pages.length)
    | some page =>
      let embed ← pageEmbed ⟨session, pages, i, config⟩ page
      return .page embed (← renderAt session pages index config off)

end Layout

end Folio
