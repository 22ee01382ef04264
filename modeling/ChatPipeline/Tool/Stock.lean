import ChatPipeline.Tool.Files
import ChatPipeline.Tool.Weather

/-!
# The stock tools

The tools that an assistant has unless it is given others: the weather of a city, the search for
files, and the content of a file.
-/

namespace ChatPipeline

open ChatPipeline.Files

def stockTools (link : Web.Link σ) (place : Place) : Outcome (List (Tool σ)) := do
  return [← Weather.tool link, ← FileTools.findFile place true, ← FileTools.catFile place]

end ChatPipeline
