import ChatPipeline.Validation.Shape
import ChatPipeline.Message.Validation
import ChatPipeline.Web.Address

/-!
# Settings

How a chat completion service is reached: the key, the address, the model and a limit on the time of
a request.  Key and model are kept without the blanks around them, and neither may be blank.
-/

namespace ChatPipeline

open ChatPipeline.Text ChatPipeline.Validation

def defaultBaseUrl : String := "https://api.deepseek.com"

def defaultModel : String := "deepseek-chat"

structure Settings where
  apiKey : String
  baseUrl : String := defaultBaseUrl
  model : String := defaultModel
  timeout : Option Float := none

namespace Settings

def checkNotBlank : Check String := fun v =>
  (checkText v).andThen fun s =>
    let kept := trim s
    if kept.isEmpty then reject "value_error" "Value error, must not be empty" v else .ok kept

def fieldNames : List String := ["api_key", "base_url", "model", "timeout"]

def checkFields (entries : Entries) : Checked Settings :=
  (fun apiKey baseUrl model timeout (_ : Unit) => { apiKey, baseUrl, model, timeout })
    <$> required entries "api_key" checkNotBlank
    <*> optional entries "base_url" defaultBaseUrl checkText
    <*> optional entries "model" defaultModel checkNotBlank
    <*> optional entries "timeout" none checkOptionalSeconds
    <*> noExtra entries fieldNames

def make (entries : Entries) : Outcome Settings := (checkFields entries).toOutcome "ChatModelConfig"

def display (s : Settings) : String :=
  "ChatModelConfig(base_url=" ++ quoted s.baseUrl ++ ", model=" ++ quoted s.model ++ ", timeout=" ++
    (Value.ofOption .float s.timeout).form ++ ")"

end Settings

/-! ## Connections -/

structure ServiceConnection where
  apiKey : String
  baseUrl : String
  timeout : Option Float := none

def Settings.connection (s : Settings) : Outcome ServiceConnection := do
  let address ← Web.Address.parse s.baseUrl
  return { apiKey := s.apiKey, baseUrl := address.asBase.text, timeout := s.timeout }

end ChatPipeline
