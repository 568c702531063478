import LoggerAnalyzer.Analyze.RejectedModules
import LoggerAnalyzer.Analyze.SpeedRange
import LoggerAnalyzer.App.PidFile
import LoggerAnalyzer.Client.FileName
import LoggerAnalyzer.Client.Form
import LoggerAnalyzer.Client.Gathering
import LoggerAnalyzer.Client.Live
import LoggerAnalyzer.Client.Presenting
import LoggerAnalyzer.Client.Reuse
import LoggerAnalyzer.Client.Speech
import LoggerAnalyzer.Parse.Loss
import LoggerAnalyzer.Parse.Walk
import LoggerAnalyzer.Session.Accounting
import LoggerAnalyzer.Session.Independence
import LoggerAnalyzer.Session.Result
import LoggerAnalyzer.Session.Stalling
import LoggerAnalyzer.Wire.ReadLoop
