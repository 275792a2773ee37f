import StepFlow.Text.Blank

/-!
# Controlled vocabularies

Three fields of steps take one word out of a fixed list. In a field the word may be written in any
case and between blanks; elsewhere it is written exactly.
-/

namespace StepFlow

/-- How long a transient message stays on screen. -/
inductive ToastDuration where
  | short
  | long
deriving DecidableEq, Repr

inductive LaunchMode where
  | platformDefault
  | inAppWebView
  | externalApplication
deriving DecidableEq, Repr

inductive HttpMethod where
  | get
  | post
  | put
  | patch
  | delete
deriving DecidableEq, Repr

inductive ModalKind where
  | dialog
  | bottomSheet
deriving DecidableEq, Repr

/-- A finite list of words, each standing for something. -/
structure Vocabulary (α : Type) where
  all : List α
  word : α → String

namespace Vocabulary

variable {α : Type}

/-- What a word stands for, written in any case and between blanks. -/
def tolerant? (v : Vocabulary α) (s : String) : Option α :=
  v.all.find? fun a => Text.sameName (Text.trim s) (v.word a)

/-- What a word stands for, written exactly. -/
def strict? (v : Vocabulary α) (s : String) : Option α :=
  v.all.find? fun a => s = v.word a

end Vocabulary

namespace ToastDuration

def vocabulary : Vocabulary ToastDuration where
  all := [.short, .long]
  word
    | .short => "short"
    | .long => "long"

end ToastDuration

namespace LaunchMode

def vocabulary : Vocabulary LaunchMode where
  all := [.platformDefault, .inAppWebView, .externalApplication]
  word
    | .platformDefault => "platformDefault"
    | .inAppWebView => "inAppWebView"
    | .externalApplication => "externalApplication"

end LaunchMode

namespace HttpMethod

def vocabulary : Vocabulary HttpMethod where
  all := [.get, .post, .put, .patch, .delete]
  word
    | .get => "GET"
    | .post => "POST"
    | .put => "PUT"
    | .patch => "PATCH"
    | .delete => "DELETE"

end HttpMethod

namespace ModalKind

def vocabulary : Vocabulary ModalKind where
  all := [.dialog, .bottomSheet]
  word
    | .dialog => "dialog"
    | .bottomSheet => "bottomSheet"

end ModalKind

end StepFlow
