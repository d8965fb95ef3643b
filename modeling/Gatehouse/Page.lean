import Gatehouse.Http.Message
import Gatehouse.Text.Html

/-!
The pages of a login.

A template is markup with slots. Rendering puts a text into every slot, escaped
so that it can neither end the text or attribute it stands in nor begin markup:
the tags of a page are those of its template, whatever texts it shows.
-/

namespace Gatehouse

/-- What a page is filled with. -/
inductive Slot where
  /-- Where a login goes on. -/
  | link
  /-- Where a finished login leads to. -/
  | target
  /-- Why a login failed. -/
  | message
  /-- Where a login begins. -/
  | login
  deriving DecidableEq, Repr

/-- A part of a template. -/
inductive Piece where
  | markup (text : String)
  | slot (s : Slot)
  deriving DecidableEq, Repr

/-- Markup with slots. -/
abbrev Template := List Piece

namespace Template

/-- A part with its slot filled. -/
def fillPiece (fill : Slot → String) : Piece → String
  | .markup text => text
  | .slot s => Text.Html.escape (fill s)

/-- A template with every slot filled. -/
def render (fill : Slot → String) (t : Template) : String :=
  String.join (t.map (fillPiece fill))

/-- The page that a login begins on. -/
def login : Template := [
  .markup r#"<!DOCTYPE html>
<html lang="en">
<head><meta charset="utf-8"><title>Sign in · Flowra</title></head>
<body>
  <main class="login">
    <h1>Sign in to Flowra</h1>
    <a class="button" id="login" href=""#,
  .slot .link,
  .markup r#"">Continue with single sign-on</a>
  </main>
</body>
</html>
"#]

/-- The page that a login ends on. -/
def callback : Template := [
  .markup r#"<!DOCTYPE html>
<html lang="en">
<head>
  <meta charset="utf-8">
  <meta http-equiv="refresh" content="0; url="#,
  .slot .target,
  .markup r#"">
  <title>Signing in · Flowra</title>
</head>
<body>
  <p>Signed in. <a id="next" href=""#,
  .slot .target,
  .markup r#"">Continue</a></p>
  <script>window.location.replace(document.getElementById("next").getAttribute("href"));</script>
</body>
</html>
"#]

def failure : Template := [
  .markup r#"<!DOCTYPE html>
<html lang="en">
<head><meta charset="utf-8"><title>Sign-in failed · Flowra</title></head>
<body>
  <main class="error">
    <h1>Sign-in failed</h1>
    <p>"#,
  .slot .message,
  .markup r#"</p>
    <a href=""#,
  .slot .login,
  .markup r#"">Try again</a>
  </main>
</body>
</html>
"#]

end Template

namespace Page

/-- The page that a login begins on, with a link to where it goes on. -/
def login (link : String) : Http.Response :=
  .html 200 (Template.login.render fun _ => link)

/-- The page that a login ends on, which leads to `target`. -/
def callback (target : String) : Http.Response :=
  .html 200 (Template.callback.render fun _ => target)

def failure (loginPath message : String) : Http.Response :=
  .html 400 (Template.failure.render fun
    | .message => message
    | _ => loginPath)

end Page

end Gatehouse
